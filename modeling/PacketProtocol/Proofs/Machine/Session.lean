import PacketProtocol.Proofs.Machine.Records
import PacketProtocol.Proofs.Messages
/-!
# Messages on the machine

What either end of a connection does with a message, in operations that can trap. Whatever the octets
are and whatever the connection is like, none of them does.
-/

namespace PacketProtocol.Machine

/-! ## Batches -/

/-- The fragments that are left, in less than `fuel` rounds; `found` were taken already. -/
def fragments (maxBatch : UInt32) : Nat → Nat → Reader → Checked BatchFault (List Bytes)
  | 0, _, _ => liftM (none : Option (List Bytes))
  | fuel + 1, found, r => do
    if ← r.isEmpty then return []
    else if 0 < maxBatch ∧ maxBatch.toNat ≤ found then throw (.tooMany maxBatch)
    else
      let (length, r) ← ExceptT.adapt .badLength (varint r)
      let (fragment, r) ← ExceptT.adapt (fun _ => .overrun length r.pos) (take length r)
      return fragment :: (← fragments maxBatch fuel (found + 1) r)

def unravel (tag : String) (body : Bytes) (maxBatch : UInt32) : Checked ProtocolError (List Bytes) :=
  if body.isEmpty then throw (.batchCorrupt tag .empty)
  else ExceptT.adapt (.batchCorrupt tag) (fragments maxBatch (body.length + 1) 0 (.start body))

/-- A fragment that is too long is reported at the place where it begins. -/
theorem takeFragment_eq {r : Reader} (hr : r.Valid) (length : Nat) :
    ExceptT.adapt (fun _ => BatchFault.overrun length r.pos) (take length r) =
      safe (if r.ahead.length < length then .error (.overrun length (r.data.length - r.ahead.length))
        else .ok (r.ahead.take length, r.skip length)) := by
  have hoffset : r.data.length - r.ahead.length = r.pos := by
    have := hr.pos_le
    rw [Reader.length_ahead]
    omega
  rw [hoffset]
  obtain hlt | hle := Nat.lt_or_ge r.ahead.length length
  · rw [take_of_lt hr hlt, if_pos hlt]
    rfl
  · rw [take_of_le hr hle, if_neg (Nat.not_lt.2 hle)]
    rfl

/-- Each fragment takes an octet, that of its length. -/
theorem fragments_eq {maxBatch : UInt32} {fuel found : Nat} {r : Reader} (hr : r.Valid)
    (hfuel : r.ahead.length < fuel) :
    fragments maxBatch fuel found r = safe (Batcher.fragments maxBatch r.data.length found r.ahead) := by
  induction fuel generalizing found r with
  | zero => cases hfuel
  | succ fuel ih =>
    rw [fragments, Batcher.fragments_eq, hr.isEmpty, liftM_some, pure_bind]
    split
    · rfl
    · split
      · rfl
      · obtain ⟨fault, hparse, hread⟩ | ⟨length, count, hleast, hcount, hparse, hread⟩ := varint_follows r hr
        · rw [hread, show Varint.decode r.ahead = _ from hparse]
          rfl
        · have hrest := hr.skip hcount
          have htake := takeFragment_eq hrest length
          rw [Reader.ahead_skip] at htake
          rw [hread, show Varint.decode r.ahead = _ from hparse]
          show (ExceptT.adapt (fun _ => BatchFault.overrun length (r.skip count).pos) (take length (r.skip count)) >>=
            fun read => _ : Checked BatchFault _) = safe (if (r.ahead.drop count).length < length then _ else _)
          rw [htake]
          split
          · rfl
          · rename_i hle
            have hfits : length ≤ (r.skip count).ahead.length := by
              rw [Reader.ahead_skip]
              exact Nat.not_lt.1 hle
            have htail := @ih (found + 1) _ (hrest.skip hfits) (by
              simp only [Reader.ahead_skip, List.length_drop]
              omega)
            rw [Reader.ahead_skip, Reader.ahead_skip] at htail
            show (fragments maxBatch fuel (found + 1) _ >>= fun others => _ : Checked BatchFault _) = _
            rw [htail]
            exact safe_map _ _

theorem unravel_eq (tag : String) {body : Bytes} (h : body.length < 2 ^ 64) (maxBatch : UInt32) :
    unravel tag body maxBatch = safe (Batcher.unravel tag body maxBatch) := by
  unfold unravel Batcher.unravel
  split
  · rfl
  · have hfragments := @fragments_eq maxBatch (body.length + 1) 0 _ (Reader.start_valid h) (Nat.lt_succ_self _)
    rw [hfragments]
    show ExceptT.adapt _ (safe (Batcher.fragments maxBatch body.length 0 body)) = _
    cases Batcher.fragments maxBatch body.length 0 body <;> rfl

/-! ## Rate limits -/

/-- Where the counter of a key is, if it has one. -/
def place (limiter : RateLimiter) (key : UInt8) : Option Nat :=
  (sub key.toNat 1).filter fun i => i < limiter.allowances.length

/-- Caps and counters are two lists side by side. -/
def hit (limiter : RateLimiter) (key : UInt8) : Option (Bool × RateLimiter) :=
  match place limiter key with
  | none => return (true, limiter)
  | some i => do
    let cap ← index (limiter.allowances.map (·.cap)) i
    if cap = 0 then return (true, limiter)
    else
      let used := min ((← index (limiter.allowances.map (·.used)) i) + 1) RateLimiter.maxCount
      return (used ≤ cap, ⟨← put limiter.allowances i ⟨cap, used⟩⟩)

def hitTimes (limiter : RateLimiter) (key : UInt8) : Nat → Option (Bool × RateLimiter)
  | 0 => return (true, limiter)
  | times + 1 => do
    match ← hit limiter key with
    | (true, limiter) => hitTimes limiter key times
    | (false, limiter) => return (false, limiter)

theorem place_of_ne (limiter : RateLimiter) {key : UInt8} (h : key ≠ 0) :
    place limiter key = if key.toNat - 1 < limiter.allowances.length then some (key.toNat - 1) else none := by
  have hpos : 1 ≤ key.toNat := Nat.one_le_iff_ne_zero.2 fun hzero => h (UInt8.toNat_inj.1 hzero)
  rw [place, sub_of_le hpos, Option.filter_some]
  simp only [decide_eq_true_eq]

theorem hit_eq (limiter : RateLimiter) (key : UInt8) : hit limiter key = some (limiter.hit key) := by
  unfold hit RateLimiter.hit RateLimiter.allowance?
  by_cases hkey : key = 0
  · subst hkey
    rfl
  · rw [place_of_ne limiter hkey, if_neg hkey]
    by_cases hplace : key.toNat - 1 < limiter.allowances.length
    · have hindex : ∀ f : Allowance → Nat, index (limiter.allowances.map f) (key.toNat - 1) =
          some (f limiter.allowances[key.toNat - 1]) := by
        intro f
        rw [index_of_lt (by simpa using hplace), List.getElem_map]
      simp only [if_pos hplace, List.getElem?_eq_getElem hplace, hindex, put_of_lt hplace]
      show (if _ then _ else _) = some (if _ then _ else _)
      split <;> rfl
    · simp only [if_neg hplace, List.getElem?_eq_none (Nat.not_lt.1 hplace)]
      rfl

theorem hitTimes_eq (limiter : RateLimiter) (key : UInt8) (times : Nat) :
    hitTimes limiter key times = some (limiter.hitTimes key times) := by
  induction times generalizing limiter with
  | zero => rfl
  | succ times ih =>
    rw [hitTimes, RateLimiter.hitTimes, hit_eq]
    obtain ⟨within, limiter'⟩ := limiter.hit key
    cases within with
    | true => exact ih limiter'
    | false => rfl

/-! ## Packets that were received -/

variable {T S : Type}

def openMessage (s : Session T S) (bytes : Bytes) : Checked ProtocolError (UInt8 × Packet × List Bytes) := do
  let (key, packet, body) ← safe (s.inboundPacket bytes)
  if !packet.enabled then
    throw (.packetDisabled packet.tag)
  let payloads ←
    if packet.schema.isBatched then unravel packet.tag body packet.schema.maxBatch
    else pure [body]
  return (key, packet, payloads)

def receive (s : Session T S) (bytes : Bytes) : Option (Result Unit × Session T S) := do
  let s := s.count (.messageReceived bytes.length)
  match ← (openMessage s bytes).run with
  | .error e => return (.error e, s)
  | .ok (key, packet, payloads) =>
    match ← hitTimes s.receiveLimiter key payloads.length with
    | (false, receiveLimiter) =>
      return (.error (.rateLimited packet.tag), Session.count { s with receiveLimiter } .rateLimitHit)
    | (true, receiveLimiter) =>
      let s := { s with receiveLimiter }
      match ← (payloads.mapM (decodePacket packet)).run with
      | .error e => return (.error e, s)
      | .ok decoded => return (.ok (), decoded.foldl (Session.deliver packet) s)

/-- No payload is longer than its message. -/
theorem length_lt_of_openMessage {s : Session T S} {bytes : Bytes} {key : UInt8} {packet : Packet}
    {payloads : List Bytes} (h : s.openMessage bytes = .ok (key, packet, payloads)) :
    ∀ payload ∈ payloads, payload.length < bytes.length := by
  obtain ⟨body, rfl, -, hpayloads⟩ := Session.openMessage_eq_ok h
  intro payload hpayload
  rw [List.length_cons, Nat.lt_succ_iff]
  split at hpayloads
  · exact Batcher.length_le_of_mem_unravel hpayloads payload hpayload
  · cases hpayloads
    rw [List.mem_singleton.1 hpayload]

theorem openMessage_eq (s : Session T S) {bytes : Bytes} (h : bytes.length < 2 ^ 64) :
    openMessage s bytes = safe (s.openMessage bytes) := by
  refine safe_bind fun opened hopened => ?_
  obtain ⟨key, packet, body⟩ := opened
  have hbody : body.length < 2 ^ 64 := by
    cases bytes with
    | nil => cases hopened
    | cons octet rest =>
      obtain ⟨_, -, hopened⟩ := Outcome.bind_eq_ok.1 hopened
      cases hopened
      exact Nat.lt_of_succ_lt h
  dsimp only
  split
  · rfl
  · split
    · rw [unravel_eq packet.tag hbody]
      exact safe_bind fun payloads _ => rfl
    · rfl

theorem receive_eq (s : Session T S) {bytes : Bytes} (h : bytes.length < 2 ^ 64) :
    receive s bytes = some (s.receive bytes) := by
  unfold receive Session.receive
  dsimp only
  rw [openMessage_eq _ h]
  cases hopen : Session.openMessage (s.count (.messageReceived bytes.length)) bytes with
  | error e => rfl
  | ok opened =>
    obtain ⟨key, packet, payloads⟩ := opened
    have hdecode : payloads.mapM (decodePacket packet) = safe (payloads.mapM packet.decode) := by
      refine safe_mapM fun payload hpayload => decodePacket_eq packet ?_
      exact Nat.lt_trans (length_lt_of_openMessage hopen payload hpayload) h
    show (hitTimes _ key payloads.length >>= fun hits => _) = _
    rw [hitTimes_eq]
    dsimp only
    obtain ⟨within, receiveLimiter⟩ := RateLimiter.hitTimes _ key payloads.length
    cases within with
    | false => rfl
    | true =>
      show (payloads.mapM (decodePacket packet)).run >>= _ = _
      rw [hdecode]
      cases payloads.mapM packet.decode <;> rfl

/-! ## Activation -/

def entries (registry : Registry) : Option (List (UInt8 × Packet)) :=
  registry.packets.zipIdx.mapM fun (packet, i) => return (UInt8.ofNat (← add 64 i 1), packet)

def limiterOf (registry : Registry) : Option RateLimiter := do
  let entries ← entries registry
  return ⟨entries.map fun (_, packet) => ⟨packet.schema.rateLimit.toNat, 0⟩⟩

section

variable [Scheduler S]

def activate (s : Session T S) (outbound inbound : Registry) (rateWindow : Option Nat) : Option (Session T S) := do
  let s ← match rateWindow with
    | some window =>
      let sendLimiter ← limiterOf outbound
      let receiveLimiter ← limiterOf inbound
      pure (Session.scheduleRepeating { s with sendLimiter, receiveLimiter } .rateReset window)
    | none => pure s
  let entries ← entries outbound
  return { entries.foldl Session.activateBatch s with outbound, inbound }

theorem entries_eq {registry : Registry} (h : registry.Numbered) : entries registry = some registry.entries := by
  refine mapM_eq_some fun entry hentry => ?_
  obtain ⟨packet, i⟩ := entry
  have hlt : i < registry.packets.length := by
    have := List.mem_zipIdx hentry
    omega
  have hsize : registry.packets.length ≤ 255 := h.size
  have hadd : add 64 i 1 = some (i + 1) := add_of_lt (by omega)
  show (add 64 i 1).bind _ = _
  rw [hadd]
  rfl

theorem limiterOf_eq {registry : Registry} (h : registry.Numbered) :
    limiterOf registry = some (.ofRegistry registry) := by
  have hpackets : registry.packets = registry.packets.zipIdx.map Prod.fst := (List.zipIdx_map_fst 0 _).symm
  rw [limiterOf, entries_eq h, RateLimiter.ofRegistry, hpackets, List.map_map]
  show some (RateLimiter.mk (List.map _ (List.map _ registry.packets.zipIdx))) = _
  rw [List.map_map]
  rfl

theorem activate_eq (s : Session T S) {outbound inbound : Registry} (houtbound : outbound.Numbered)
    (hinbound : inbound.Numbered) (rateWindow : Option Nat) :
    activate s outbound inbound rateWindow = some (s.activate outbound inbound rateWindow) := by
  cases rateWindow with
  | none =>
    rw [activate, entries_eq houtbound]
    rfl
  | some window =>
    rw [activate, entries_eq houtbound, limiterOf_eq houtbound, limiterOf_eq hinbound]
    rfl

/-! ## Clients -/

/-- Takes on what the server announced. -/
def adopt (c : ClientConnection T S) (handshake : Handshake) : Option (ClientConnection T S) := do
  let rateWindow := rateWindowMs handshake.rateWindow
  let session ← activate c.session handshake.client handshake.server rateWindow
  let (dispatcher, reports) := session.dispatcher.drainPending handshake.server
  let session := { session with dispatcher, state := .ready }.note reports
  let (dispatcher, calls) := session.dispatcher.fireReady
  let session := ({ session with dispatcher }.count .handshakeSuccess).note calls
  return { c with session, rateWindow }

variable [Transport T]

def completeHandshake (c : ClientConnection T S) (bytes : Bytes) : Option (ClientConnection T S) := do
  match ← parseHandshake bytes with
  | .ok handshake => adopt c.stopExpiry handshake
  | .error e => return c.stopExpiry.refuse e

def receiveOrFail (s : Session T S) (bytes : Bytes) : Option (Session T S) := do
  match ← receive s bytes with
  | (.ok (), s) => return s
  | (.error e, s) => return s.fail e

def onMessageClient (c : ClientConnection T S) (bytes : Bytes) : Option (ClientConnection T S) :=
  match c.state with
  | .connecting => completeHandshake c.awaitHandshake bytes
  | .awaitingSchema => completeHandshake c bytes
  | .ready => do return { c with session := ← receiveOrFail c.session bytes }
  | .closed => return c

def onMessageServer (c : ServerConnection T S) (bytes : Bytes) : Option (ServerConnection T S) :=
  if c.session.isReady then
    match c.checkFirst bytes with
    | (.ok (), c) => do return { c with session := ← receiveOrFail c.session bytes }
    | (.error e, c) => return { c with session := c.session.fail e }
  else return c

/-- What an end of a connection does with a message. -/
def onMessage (e : Endpoint T S) (bytes : Bytes) : Option (Endpoint T S) :=
  match e with
  | .client connection => Endpoint.client <$> onMessageClient connection bytes
  | .server connection => Endpoint.server <$> onMessageServer connection bytes

theorem receiveOrFail_eq (s : Session T S) {bytes : Bytes} (h : bytes.length < 2 ^ 64) :
    receiveOrFail s bytes = some (s.receiveOrFail bytes) := by
  rw [receiveOrFail, Session.receiveOrFail, receive_eq s h]
  obtain ⟨result, s'⟩ := s.receive bytes
  cases result <;> rfl

theorem completeHandshake_eq (c : ClientConnection T S) {bytes : Bytes} (h : bytes.length < 2 ^ 64) :
    completeHandshake c bytes = some (c.completeHandshake bytes) := by
  rw [completeHandshake, ClientConnection.completeHandshake, parseHandshake_eq h]
  cases hparse : Handshake.parse bytes with
  | error e => rfl
  | ok handshake =>
    obtain ⟨hclient, hserver⟩ := Handshake.parse_numbered hparse
    show adopt c.stopExpiry handshake = _
    rw [adopt, activate_eq _ hclient hserver]
    rfl

/-- No message traps, in whatever state an end is. -/
theorem onMessage_eq (e : Endpoint T S) {bytes : Bytes} (h : bytes.length < 2 ^ 64) :
    onMessage e bytes = some (e.onMessage bytes) := by
  cases e with
  | client c =>
    rw [onMessage, Endpoint.onMessage, onMessageClient, ClientConnection.onMessage]
    cases c.state with
    | connecting =>
      dsimp only
      rw [completeHandshake_eq _ h]
      rfl
    | awaitingSchema =>
      dsimp only
      rw [completeHandshake_eq _ h]
      rfl
    | ready =>
      dsimp only
      rw [receiveOrFail_eq _ h]
      rfl
    | closed => rfl
  | server c =>
    rw [onMessage, Endpoint.onMessage, onMessageServer, ServerConnection.onMessage]
    split
    · obtain ⟨result, c'⟩ := c.checkFirst bytes
      cases result with
      | ok =>
        dsimp only
        rw [receiveOrFail_eq _ h]
        rfl
      | error e => rfl
    · rfl

end

end PacketProtocol.Machine
