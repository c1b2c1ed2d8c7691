import PacketProtocol.Hub
import PacketProtocol.Proofs.Emission
import PacketProtocol.Proofs.Lifecycle
/-!
# Connections of a hub

What a hub does to one connection depends on that connection, on what is asked of it, and on what is
broadcast. Two runs that are alike in these leave it the same, whatever happens to the other connections.
-/

namespace PacketProtocol

/-! ## What is done to one connection -/

/-- Something done to one connection, through the hub or by itself. -/
inductive Deed where
  | message (bytes : Bytes)
  | timer (kind : TimerKind)
  | transportClosed (code : CloseCode) (reason : String)
  | send (tag : String) (values : List Value)
  | close (code : CloseCode) (reason : String)
  | on (tag : String) (listener : Listener)
  | onClose (callback : String)
  | onError (callback : String)

/-- What an operation of a hub is for one connection. -/
inductive Share (T S : Type) where
  | own (deed : Deed)
  | broadcast (select : ServerConnection T S → Bool) (tag : String) (values : List Value)
  | removed

namespace ServerConnection

variable {T S : Type} {c c' c'' : ServerConnection T S}

/-- Two connections of which nothing different was ever seen. -/
structure Matches (c c' : ServerConnection T S) : Prop where
  state : c.state = c'.state
  transport : c.session.transport = c'.session.transport
  journal : c.session.journal = c'.session.journal

theorem Matches.refl (c : ServerConnection T S) : c.Matches c := ⟨rfl, rfl, rfl⟩

theorem Matches.symm (h : c.Matches c') : c'.Matches c := ⟨h.state.symm, h.transport.symm, h.journal.symm⟩

theorem Matches.trans (h : c.Matches c') (h' : c'.Matches c'') : c.Matches c'' :=
  ⟨h.state.trans h'.state, h.transport.trans h'.transport, h.journal.trans h'.journal⟩

variable [Transport T]

/-- What is broadcast reaches a connection if the packet may be sent, and it is ready and selected. -/
def hear (definition : Definition) (c : ServerConnection T S) (select : ServerConnection T S → Bool) (tag : String)
    (values : List Value) : ServerConnection T S :=
  match (ServerHub.empty definition : ServerHub T S).prepare tag values with
  | .ok (key, payload) => if c.session.isReady && select c then (ServerHub.offer key payload c).2 else c
  | .error _ => c

variable [Scheduler S]

def deed (c : ServerConnection T S) : Deed → ServerConnection T S
  | .message bytes => c.onMessage bytes
  | .timer kind => c.onTimer kind
  | .transportClosed code reason => c.onTransportClose code reason
  | .send tag values => (c.send tag values).2
  | .close code reason => c.close code reason
  | .on tag listener =>
    match c.on tag listener with
    | .ok c => c
    | .error _ => c
  | .onClose callback => c.onClose callback
  | .onError callback => c.onError callback

/-- A connection by itself, until it is removed. -/
def alone (definition : Definition) (c : ServerConnection T S) : List (Share T S) → ServerConnection T S
  | [] => c
  | .own deed :: shares => alone definition (c.deed deed) shares
  | .broadcast select tag values :: shares => alone definition (c.hear definition select tag values) shares
  | .removed :: _ => c

/-- The same deeds and broadcasts, up to the removal. Selections may differ where the connection is not asked about, or
gives the same answer. -/
inductive Alike (definition : Definition) : ServerConnection T S → List (Share T S) → List (Share T S) → Prop
  | nil {c : ServerConnection T S} : Alike definition c [] []
  | own {c : ServerConnection T S} {shares shares' : List (Share T S)} (deed : Deed) :
      Alike definition (c.deed deed) shares shares' → Alike definition c (.own deed :: shares) (.own deed :: shares')
  | broadcast {c : ServerConnection T S} {shares shares' : List (Share T S)}
      {select select' : ServerConnection T S → Bool} (tag : String) (values : List Value) :
      (c.session.isReady = true → select c = select' c) →
      Alike definition (c.hear definition select tag values) shares shares' →
      Alike definition c (.broadcast select tag values :: shares) (.broadcast select' tag values :: shares')
  | removed {c : ServerConnection T S} (shares shares' : List (Share T S)) :
      Alike definition c (.removed :: shares) (.removed :: shares')

variable {definition : Definition} {shares shares' : List (Share T S)}

omit [Scheduler S] in
theorem hear_congr {select select' : ServerConnection T S → Bool}
    (hselect : c.session.isReady = true → select c = select' c) (tag : String) (values : List Value) :
    c.hear definition select tag values = c.hear definition select' tag values := by
  unfold hear
  split
  · cases hready : c.session.isReady with
    | false => simp
    | true => rw [hselect hready]
  · rfl

theorem Alike.alone (h : Alike definition c shares shares') :
    c.alone definition shares = c.alone definition shares' := by
  induction h with
  | nil => rfl
  | own deed _ ih => exact ih
  | broadcast tag values hselect _ ih =>
    simp only [ServerConnection.alone]
    rw [← hear_congr hselect, ih]
  | removed shares shares' => rfl

/-! ## Closed connections -/

omit [Transport T] [Scheduler S] in
theorem isReady_of_closed (h : c.state = .closed) : c.session.isReady = false := by
  have hstate : c.session.state = .closed := h
  simp [Session.isReady, hstate]

/-- Nothing done to a closed connection shows. -/
theorem matches_deed (h : c.state = .closed) (deed : Deed) : c.Matches (c.deed deed) := by
  have hstate : c.session.state = .closed := h
  have hready := isReady_of_closed h
  cases deed with
  | message bytes =>
    simp only [ServerConnection.deed, onMessage, hready]
    exact .refl c
  | timer kind =>
    have hrecurring : (c.session.onTimer kind) = c.session :=
      Session.onTimer_of_not_ready (by rw [hstate]; decide) kind
    cases kind with
    | handshakeExpiry =>
      simp only [ServerConnection.deed, onTimer, expire, hready, Bool.and_false]
      exact ⟨rfl, rfl, rfl⟩
    | rateReset =>
      simp only [ServerConnection.deed, onTimer, hrecurring]
      exact .refl c
    | batchFlush key =>
      simp only [ServerConnection.deed, onTimer, hrecurring]
      exact .refl c
  | transportClosed code reason =>
    simp only [ServerConnection.deed, onTransportClose, Session.closedByPeer, hstate, if_true]
    exact .refl c
  | send tag values =>
    simp only [ServerConnection.deed, send, Session.send_of_closed hstate]
    exact .refl c
  | close code reason =>
    simp only [ServerConnection.deed, close, Session.close, hstate, if_true]
    exact .refl c
  | on tag listener =>
    simp only [ServerConnection.deed, ServerConnection.on, h, if_true]
    exact .refl c
  | onClose callback => exact ⟨rfl, rfl, rfl⟩
  | onError callback => exact ⟨rfl, rfl, rfl⟩

omit [Scheduler S] in
theorem hear_of_closed (h : c.state = .closed) (select : ServerConnection T S → Bool) (tag : String)
    (values : List Value) : c.hear definition select tag values = c := by
  unfold hear
  split
  · rw [isReady_of_closed h]
    simp
  · rfl

theorem matches_alone (h : c.state = .closed) (shares : List (Share T S)) : c.Matches (c.alone definition shares) := by
  induction shares generalizing c with
  | nil => exact .refl c
  | cons share shares ih =>
    cases share with
    | own deed =>
      have hdeed := matches_deed h deed
      exact hdeed.trans (ih (hdeed.state.symm.trans h))
    | broadcast select tag values =>
      simp only [alone, hear_of_closed h]
      exact ih h
    | removed => exact .refl c

end ServerConnection

/-! ## Operations of a hub -/

namespace ServerHub

inductive Operation (T S : Type) where
  | accept (transport : T) (scheduler : S)
  /-- Something done to the connection with a number. -/
  | own (id : Nat) (deed : Deed)
  | remove (id : Nat)
  | prune
  | broadcast (select : Nat → ServerConnection T S → Bool) (tag : String) (values : List Value)

/-- What the operation is for the connection with a number. -/
def Operation.share? {T S : Type} (id : Nat) : Operation T S → Option (Share T S)
  | .own other deed => if other = id then some (.own deed) else none
  | .remove other => if other = id then some .removed else none
  | .broadcast select tag values => some (.broadcast (select id) tag values)
  | .accept .. | .prune => none

def shares {T S : Type} (id : Nat) (operations : List (Operation T S)) : List (Share T S) :=
  operations.filterMap (Operation.share? id)

variable {T S : Type} {hub : ServerHub T S} {id other : Nat} {c : ServerConnection T S}

/-- Each number is given once, and the next is new. -/
structure Numbered (hub : ServerHub T S) : Prop where
  nodup : hub.ids.Nodup
  lt : ∀ id ∈ hub.ids, id < hub.nextId

theorem numbered_empty (definition : Definition) : (empty definition : ServerHub T S).Numbered :=
  ⟨List.nodup_nil, by simp [empty, ids]⟩

theorem mem_ids_of_get? (h : hub.get? id = some c) : id ∈ hub.ids := by
  obtain ⟨entry, hentry, rfl⟩ := Option.map_eq_some_iff.1 h
  have hsame : entry.1 = id := by simpa using List.find?_some hentry
  exact List.mem_map.2 ⟨entry, List.mem_of_find?_eq_some hentry, hsame⟩

theorem get?_eq_none_iff : hub.get? id = none ↔ id ∉ hub.ids := by
  simp only [get?, Option.map_eq_none_iff, List.find?_eq_none, ids, List.mem_map, beq_iff_eq, not_exists, not_and]

/-- A change of each connection by itself. -/
theorem get?_map (hub : ServerHub T S) (change : Nat → ServerConnection T S → ServerConnection T S) (id : Nat) :
    get? { hub with connections := hub.connections.map fun entry => (entry.1, change entry.1 entry.2) } id =
      change id <$> hub.get? id := by
  simp only [get?, List.find?_map, Option.map_map, Option.map_eq_map]
  apply Option.map_congr
  intro entry hentry
  have hsame : entry.1 = id := by simpa using List.find?_some hentry
  simp [hsame]

/-- Entries that are left out do not matter to those that stay. -/
theorem get?_filter {keep : Nat × ServerConnection T S → Bool} (hnodup : hub.ids.Nodup) (h : hub.get? id = some c) :
    get? { hub with connections := hub.connections.filter keep } id = if keep (id, c) then some c else none := by
  obtain ⟨definition, connections, nextId⟩ := hub
  simp only [get?, ids] at hnodup h ⊢
  induction connections with
  | nil => cases h
  | cons entry connections ih =>
    rw [List.map_cons, List.nodup_cons] at hnodup
    by_cases hid : entry.1 = id
    · have hentry : entry = (id, c) := by
        simp only [List.find?_cons, hid, beq_self_eq_true, Option.map_some, Option.some.injEq] at h
        exact Prod.ext hid h
      subst hentry
      cases hkeep : keep (id, c) with
      | false =>
        -- no later entry has the number
        have hlater : ∀ later ∈ connections, later.1 ≠ id := by
          intro later hmem hsame
          exact hnodup.1 (List.mem_map.2 ⟨later, hmem, hsame⟩)
        simpa [hkeep] using fun id' c' hmem _ => hlater (id', c') hmem
      | true => simp [hkeep]
    · have hne : (entry.1 == id) = false := by simpa using hid
      simp only [List.find?_cons, hne] at h
      rw [← ih hnodup.2 h]
      cases hkeep : keep entry <;> simp [hkeep, hne]

variable [Transport T]

/-- A broadcast is heard by each connection by itself. -/
theorem broadcastTo_eq_ok {select : Nat → ServerConnection T S → Bool} {tag : String} {values : List Value}
    {count : Nat} {hub' : ServerHub T S} (h : hub.broadcastTo select tag values = .ok (count, hub')) :
    hub' = { hub with
      connections := hub.connections.map fun entry =>
        (entry.1, entry.2.hear hub.definition (select entry.1) tag values) } := by
  obtain ⟨⟨key, payload⟩, hprepare, h⟩ := Outcome.bind_eq_ok.1 h
  have hprepare' : (empty hub.definition : ServerHub T S).prepare tag values = .ok (key, payload) := hprepare
  obtain ⟨-, rfl⟩ := Prod.mk.inj (Except.ok.inj h)
  simp only [ServerHub.mk.injEq, List.map_map, true_and, and_true]
  apply List.map_congr_left
  intro entry _
  simp only [ServerConnection.hear, hprepare', Function.comp_apply]
  split <;> rfl

theorem broadcastTo_eq_error {select : Nat → ServerConnection T S → Bool} {tag : String} {values : List Value}
    {error : ProtocolError} (h : hub.broadcastTo select tag values = .error error) (c : ServerConnection T S)
    (choose : ServerConnection T S → Bool) : c.hear hub.definition choose tag values = c := by
  have hprepare : (empty hub.definition : ServerHub T S).prepare tag values = .error error := by
    unfold broadcastTo at h
    cases hprepare : hub.prepare tag values with
    | error e =>
      rw [hprepare] at h
      cases h
      exact hprepare
    | ok prepared =>
      rw [hprepare] at h
      cases h
  simp only [ServerConnection.hear, hprepare]

variable [Scheduler S]

def step (hub : ServerHub T S) : Operation T S → ServerHub T S
  | .accept transport scheduler =>
    match hub.accept transport scheduler with
    | .accepted _ hub => hub
    | .full _ | .refused .. => hub
  | .own id deed => hub.modify id (·.deed deed)
  | .remove id => hub.remove id
  | .prune => hub.prune
  | .broadcast select tag values =>
    match hub.broadcastTo select tag values with
    | .ok (_, hub) => hub
    | .error _ => hub

def run (hub : ServerHub T S) (operations : List (Operation T S)) : ServerHub T S := operations.foldl step hub

/-- A connection as it was when a run had it for the last time. -/
def lastSeen (hub : ServerHub T S) (id : Nat) : List (Operation T S) → Option (ServerConnection T S)
  | [] => hub.get? id
  | operation :: operations => ((hub.step operation).lastSeen id operations).or (hub.get? id)

theorem accept_eq_accepted {transport : T} {scheduler : S} {hub' : ServerHub T S}
    (h : hub.accept transport scheduler = .accepted id hub') :
    ∃ c, ServerConnection.accept hub.definition transport scheduler = .serving c ∧ id = hub.nextId ∧
      hub' = { hub with connections := hub.connections ++ [(hub.nextId, c)], nextId := hub.nextId + 1 } := by
  simp only [accept] at h
  split at h
  · cases h
  · split at h
    · cases h
    · rename_i c hserving
      cases h
      exact ⟨c, hserving, rfl, rfl⟩

/-! ## Steps of a hub -/

/-- Numbers are never given twice, and the definition stays. -/
theorem step_ids (hub : ServerHub T S) (operation : Operation T S) :
    (hub.step operation).definition = hub.definition ∧
      ((hub.step operation).nextId = hub.nextId ∧ (hub.step operation).ids.Sublist hub.ids ∨
        (hub.step operation).nextId = hub.nextId + 1 ∧ (hub.step operation).ids = hub.ids ++ [hub.nextId]) := by
  have hsame : ∀ change : Nat × ServerConnection T S → ServerConnection T S,
      ids { hub with connections := hub.connections.map fun entry => (entry.1, change entry) } = hub.ids := by
    intro change
    simp [ids, Function.comp_def]
  cases operation with
  | accept transport scheduler =>
    simp only [step]
    split
    · rename_i id hub' haccept
      obtain ⟨c, -, -, rfl⟩ := accept_eq_accepted haccept
      exact ⟨rfl, .inr ⟨rfl, by simp [ids]⟩⟩
    · exact ⟨rfl, .inl ⟨rfl, .refl _⟩⟩
    · exact ⟨rfl, .inl ⟨rfl, .refl _⟩⟩
  | own other deed => exact ⟨rfl, .inl ⟨rfl, by rw [← hsame]; exact .refl _⟩⟩
  | remove other => exact ⟨rfl, .inl ⟨rfl, List.filter_sublist.map _⟩⟩
  | prune => exact ⟨rfl, .inl ⟨rfl, List.filter_sublist.map _⟩⟩
  | broadcast select tag values =>
    simp only [step]
    split
    · rename_i hbroadcast
      rw [broadcastTo_eq_ok hbroadcast]
      exact ⟨rfl, .inl ⟨rfl, by rw [hsame]⟩⟩
    · exact ⟨rfl, .inl ⟨rfl, .refl _⟩⟩

theorem Numbered.step (h : hub.Numbered) (operation : Operation T S) : (hub.step operation).Numbered := by
  obtain ⟨-, ⟨hnext, hids⟩ | ⟨hnext, hids⟩⟩ := hub.step_ids operation
  · refine ⟨hids.nodup h.nodup, ?_⟩
    intro id hid
    rw [hnext]
    exact h.lt id (hids.subset hid)
  · have hnew : hub.nextId ∉ hub.ids := fun hmem => Nat.lt_irrefl _ (h.lt _ hmem)
    refine ⟨?_, ?_⟩
    · rw [hids]
      exact List.nodup_append.2 ⟨h.nodup, by simp, by
        intro id hid other hother hsame
        rw [List.mem_singleton] at hother
        exact hnew (hother ▸ hsame ▸ hid)⟩
    · intro id hid
      rw [hids, List.mem_append, List.mem_singleton] at hid
      rw [hnext]
      rcases hid with hid | rfl
      · exact Nat.lt_succ_of_lt (h.lt id hid)
      · exact Nat.lt_succ_self _

theorem Numbered.run (h : hub.Numbered) (operations : List (Operation T S)) : (hub.run operations).Numbered := by
  induction operations generalizing hub with
  | nil => exact h
  | cons operation operations ih => exact ih (h.step operation)

theorem definition_run (hub : ServerHub T S) (operations : List (Operation T S)) :
    (hub.run operations).definition = hub.definition := by
  induction operations generalizing hub with
  | nil => rfl
  | cons operation operations ih => exact (ih (hub.step operation)).trans (hub.step_ids operation).1

/-- A number that was given and is no longer in use never comes back. -/
theorem lastSeen_of_absent (hid : id ∉ hub.ids) (hlt : id < hub.nextId) (operations : List (Operation T S)) :
    hub.lastSeen id operations = none ∧ (hub.run operations).get? id = none := by
  induction operations generalizing hub with
  | nil => exact ⟨get?_eq_none_iff.2 hid, get?_eq_none_iff.2 hid⟩
  | cons operation operations ih =>
    have hstep : id ∉ (hub.step operation).ids ∧ id < (hub.step operation).nextId := by
      obtain ⟨-, ⟨hnext, hids⟩ | ⟨hnext, hids⟩⟩ := hub.step_ids operation
      · exact ⟨fun hmem => hid (hids.subset hmem), hnext ▸ hlt⟩
      · refine ⟨?_, hnext ▸ Nat.lt_succ_of_lt hlt⟩
        rw [hids, List.mem_append, List.mem_singleton]
        rintro (hmem | rfl)
        · exact hid hmem
        · exact Nat.lt_irrefl _ hlt
    obtain ⟨hseen, hget⟩ := ih hstep.1 hstep.2
    refine ⟨?_, hget⟩
    rw [lastSeen, hseen, get?_eq_none_iff.2 hid]
    rfl

/-- What becomes of a connection in one operation, by what the operation is for it. -/
inductive Fate (definition : Definition) (c : ServerConnection T S) :
    Option (Share T S) → Option (ServerConnection T S) → Prop
  | untouched : Fate definition c none (some c)
  | pruned : c.state = .closed → Fate definition c none none
  | own (deed : Deed) : Fate definition c (some (.own deed)) (some (c.deed deed))
  | broadcast (select : ServerConnection T S → Bool) (tag : String) (values : List Value) :
      Fate definition c (some (.broadcast select tag values)) (some (c.hear definition select tag values))
  | removed : Fate definition c (some .removed) none

theorem fate_step (hnumbered : hub.Numbered) (h : hub.get? id = some c) (operation : Operation T S) :
    Fate hub.definition c (operation.share? id) ((hub.step operation).get? id) := by
  cases operation with
  | accept transport scheduler =>
    have hkept : (hub.step (.accept transport scheduler)).get? id = some c := by
      simp only [step]
      split
      · rename_i haccept
        obtain ⟨new, -, -, rfl⟩ := accept_eq_accepted haccept
        obtain ⟨entry, hentry, hc⟩ := Option.map_eq_some_iff.1 h
        simp [get?, List.find?_append, hentry, hc]
      · exact h
      · exact h
    rw [hkept]
    exact .untouched
  | own other deed =>
    have hget : (hub.step (.own other deed)).get? id =
        (fun c => if id = other then c.deed deed else c) <$> hub.get? id :=
      hub.get?_map (fun id c => if id = other then c.deed deed else c) id
    rw [hget, h]
    by_cases hid : other = id
    · subst hid
      simpa [Operation.share?] using Fate.own deed
    · simpa [Operation.share?, hid, Ne.symm hid] using Fate.untouched
  | remove other =>
    have hget : (hub.step (.remove other)).get? id = if (id != other) = true then some c else none :=
      get?_filter hnumbered.nodup h
    rw [hget]
    by_cases hid : other = id
    · subst hid
      simpa [Operation.share?] using Fate.removed
    · simpa [Operation.share?, hid, Ne.symm hid] using Fate.untouched
  | prune =>
    have hget : (hub.step .prune).get? id = if (c.state != .closed) = true then some c else none :=
      get?_filter hnumbered.nodup h
    rw [hget]
    by_cases hclosed : c.state = .closed
    · simpa [Operation.share?, hclosed] using Fate.pruned hclosed
    · simpa [Operation.share?, hclosed] using Fate.untouched
  | broadcast select tag values =>
    have hget : (hub.step (.broadcast select tag values)).get? id =
        some (c.hear hub.definition (select id) tag values) := by
      simp only [step]
      split
      · rename_i hbroadcast
        rw [broadcastTo_eq_ok hbroadcast, get?_map hub fun id c => c.hear hub.definition (select id) tag values, h]
        rfl
      · rename_i hbroadcast
        rw [broadcastTo_eq_error hbroadcast, h]
    rw [hget]
    exact .broadcast _ _ _

/-! ## A connection in a hub, and by itself -/

/-- A connection of a hub is seen to do what it would do by itself. As long as the hub has it the two are the same. -/
theorem lastSeen_alone (hnumbered : hub.Numbered) (h : hub.get? id = some c) (operations : List (Operation T S)) :
    ∃ seen, hub.lastSeen id operations = some seen ∧ seen.Matches (c.alone hub.definition (shares id operations)) ∧
      ∀ final, (hub.run operations).get? id = some final → final = c.alone hub.definition (shares id operations) := by
  induction operations generalizing hub c with
  | nil =>
    refine ⟨c, h, .refl c, ?_⟩
    intro final hfinal
    exact Option.some.inj (hfinal.symm.trans h)
  | cons operation operations ih =>
    have hdefinition := (hub.step_ids operation).1
    have hfate := fate_step hnumbered h operation
    -- a connection that left is not seen again, and what it left as is what was seen last
    have hleft : (hub.step operation).get? id = none → ∀ c', c.Matches c' →
        ∃ seen, hub.lastSeen id (operation :: operations) = some seen ∧ seen.Matches c' ∧
          ∀ final, (hub.run (operation :: operations)).get? id = some final → final = c' := by
      intro hnone c' hmatches
      have hlt : id < (hub.step operation).nextId := by
        have hlt := hnumbered.lt id (mem_ids_of_get? h)
        obtain ⟨-, ⟨hnext, -⟩ | ⟨hnext, -⟩⟩ := hub.step_ids operation <;> omega
      obtain ⟨hseen, hget⟩ := lastSeen_of_absent (get?_eq_none_iff.1 hnone) hlt operations
      refine ⟨c, by rw [lastSeen, hseen, h]; rfl, hmatches, ?_⟩
      intro final hfinal
      cases hget.symm.trans hfinal
    have hstays : ∀ c', (hub.step operation).get? id = some c' →
        ∃ seen, hub.lastSeen id (operation :: operations) = some seen ∧
          seen.Matches (c'.alone hub.definition (shares id operations)) ∧
          ∀ final, (hub.run (operation :: operations)).get? id = some final →
            final = c'.alone hub.definition (shares id operations) := by
      intro c' hget
      obtain ⟨seen, hseen, hmatches, hfinal⟩ := ih (hnumbered.step operation) hget
      rw [hdefinition] at hmatches hfinal
      exact ⟨seen, by rw [lastSeen, hseen]; rfl, hmatches, hfinal⟩
    generalize hshare : operation.share? id = share at hfate
    generalize hnext : (hub.step operation).get? id = next at hfate
    cases hfate with
    | untouched =>
      rw [shares, List.filterMap_cons_none hshare]
      exact hstays c hnext
    | pruned hclosed =>
      rw [shares, List.filterMap_cons_none hshare]
      exact hleft hnext _ (ServerConnection.matches_alone hclosed _)
    | own deed =>
      rw [shares, List.filterMap_cons_some hshare]
      exact hstays _ hnext
    | broadcast select tag values =>
      rw [shares, List.filterMap_cons_some hshare]
      exact hstays _ hnext
    | removed =>
      rw [shares, List.filterMap_cons_some hshare]
      exact hleft hnext c (.refl c)

theorem get?_of_accepted {transport : T} {scheduler : S} {joined : ServerHub T S} (hnumbered : hub.Numbered)
    (h : hub.accept transport scheduler = .accepted id joined) :
    joined.Numbered ∧ joined.definition = hub.definition ∧
      ∃ c, ServerConnection.accept hub.definition transport scheduler = .serving c ∧ joined.get? id = some c := by
  have hstep : hub.step (.accept transport scheduler) = joined := by rw [step, h]
  have hjoined := hnumbered.step (.accept transport scheduler)
  rw [hstep] at hjoined
  obtain ⟨c, hserving, rfl, rfl⟩ := accept_eq_accepted h
  refine ⟨hjoined, rfl, c, hserving, ?_⟩
  have hnew : hub.get? hub.nextId = none :=
    get?_eq_none_iff.2 fun hmem => Nat.lt_irrefl _ (hnumbered.lt _ hmem)
  simp only [get?, Option.map_eq_none_iff] at hnew
  simp [get?, List.find?_append, hnew]

/-- Two runs of a hub accept a connection, each at a moment and under a number of its own. The same is done to it in
both, and the same is broadcast, with selections that agree on it. Then it has written the same messages, had the
same callbacks run and is in the same state, for as long as either run has it; and when both still have it, it is
the same in everything. -/
theorem run_isolates (hnumbered : hub.Numbered) {transport : T} {scheduler : S}
    {before before' after after' : List (Operation T S)} {id id' : Nat} {joined joined' : ServerHub T S}
    (hjoins : (hub.run before).accept transport scheduler = .accepted id joined)
    (hjoins' : (hub.run before').accept transport scheduler = .accepted id' joined')
    (halike : ∀ c, joined.get? id = some c →
      ServerConnection.Alike hub.definition c (shares id after) (shares id' after')) :
    ∃ seen seen', joined.lastSeen id after = some seen ∧ joined'.lastSeen id' after' = some seen' ∧
      seen.session.transport = seen'.session.transport ∧ seen.session.journal = seen'.session.journal ∧
      seen.state = seen'.state ∧
      ∀ final final', (joined.run after).get? id = some final → (joined'.run after').get? id' = some final' →
        final = final' := by
  obtain ⟨hnumbered₁, hdefinition₁, c, hserving, hget⟩ := get?_of_accepted (hnumbered.run before) hjoins
  obtain ⟨hnumbered₂, hdefinition₂, c', hserving', hget'⟩ := get?_of_accepted (hnumbered.run before') hjoins'
  rw [definition_run] at hdefinition₁ hserving hdefinition₂ hserving'
  -- both runs begin with the same connection
  obtain rfl : c = c' := Acceptance.serving.inj (hserving.symm.trans hserving')
  obtain ⟨seen, hseen, hmatches, hfinal⟩ := lastSeen_alone hnumbered₁ hget after
  obtain ⟨seen', hseen', hmatches', hfinal'⟩ := lastSeen_alone hnumbered₂ hget' after'
  rw [hdefinition₁] at hmatches hfinal
  rw [hdefinition₂] at hmatches' hfinal'
  have hsame := (halike c hget).alone
  have hboth : seen.Matches seen' := hmatches.trans (hsame ▸ hmatches'.symm)
  refine ⟨seen, seen', hseen, hseen', hboth.transport, hboth.journal, hboth.state, ?_⟩
  intro final final' hhas hhas'
  rw [hfinal final hhas, hfinal' final' hhas', hsame]

namespace Crowd

def definition : Definition where
  client := .empty
  server := ⟨[{ tag := "news", schema := { shape := .single ⟨.raw, 1, 100⟩ } }]⟩
  enums := .empty
  config := {}
  handshake := []

/-- A neighbour joins, sends what nobody can read, and is dropped. -/
def noisy : List (Operation Outbox Clock) :=
  [.accept {} {}, .own 2 (.message [0x48]), .broadcast (fun _ _ => true) "news" [.string "rain"], .prune,
    .own 1 (.close .normal "bye")]

/-- A neighbour was there before and hears nothing; the connection is dropped once it closed. -/
def quiet : List (Operation Outbox Clock) :=
  [.broadcast (fun id _ => id == 2) "news" [.string "rain"], .own 2 (.close .normal "bye"), .prune]

end Crowd

theorem run_isolates_crowd :
    let hub : ServerHub Outbox Clock := empty Crowd.definition
    ∃ joined joined' seen seen', hub.accept {} {} = .accepted 1 joined ∧
      (hub.run [.accept {} {}]).accept {} {} = .accepted 2 joined' ∧
      joined.lastSeen 1 Crowd.noisy = some seen ∧ joined'.lastSeen 2 Crowd.quiet = some seen' ∧
      seen.session.transport = seen'.session.transport ∧ seen.session.journal = seen'.session.journal ∧
      seen.state = seen'.state := by
  intro hub
  have haccepts : Transport.Accepts ({} : Outbox) := fun _ _ => rfl
  obtain ⟨c, hserving, -⟩ := ServerConnection.accept_accepted Crowd.definition haccepts ({} : Clock)
  have hjoins : ∀ connections : List (Nat × ServerConnection Outbox Clock), connections.length ≤ 1 → ∀ next,
      accept ⟨Crowd.definition, connections, next⟩ {} {} =
        .accepted next ⟨Crowd.definition, connections ++ [(next, c)], next + 1⟩ := by
    intro connections hfew next
    have hroom : ¬Crowd.definition.config.maxConnections ≤ connections.length := by
      have hlimit : Crowd.definition.config.maxConnections = 1000 := rfl
      omega
    simp only [accept, size, hserving, if_neg hroom]
  have hfirst : (hub.run []).accept {} {} = .accepted 1 ⟨Crowd.definition, [(1, c)], 2⟩ := hjoins [] (by simp) 1
  have hsecond : (hub.run [.accept {} {}]).accept {} {} =
      .accepted 2 ⟨Crowd.definition, [(1, c), (2, c)], 3⟩ := by
    have hrun : hub.run [.accept {} {}] = ⟨Crowd.definition, [(1, c)], 2⟩ := by
      show step hub (.accept {} {}) = _
      rw [step, show hub.accept {} {} = _ from hfirst]
    rw [hrun]
    exact hjoins [(1, c)] (by simp) 2
  have halike : ∀ c : ServerConnection Outbox Clock,
      ServerConnection.Alike Crowd.definition c (shares 1 Crowd.noisy) (shares 2 Crowd.quiet) := by
    intro c
    exact .broadcast _ _ (fun _ => rfl) (.own _ .nil)
  obtain ⟨seen, seen', hseen, hseen', htransport, hjournal, hstate, -⟩ :=
    run_isolates (numbered_empty Crowd.definition) hfirst hsecond fun c _ => halike c
  exact ⟨_, _, seen, seen', hfirst, hsecond, hseen, hseen', htransport, hjournal, hstate⟩

end ServerHub

end PacketProtocol
