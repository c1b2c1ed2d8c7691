import PacketProtocol.Proofs.FirstPacket
import PacketProtocol.Proofs.Hostile
/-!
# Giving up on a handshake

A timer may be brought to a connection at any moment: when it is due, after it was cancelled, or twice. Only
the one that gives up on a handshake closes anything. It leaves a client alone that has read the handshake,
and a server that heard the packet it requires; but a server that requires none never hears of it, and such a
timer closes it.
-/

namespace PacketProtocol

/-- A recurring timer leaves a session as open as it was. -/
theorem Session.onTimer_open {T S : Type} [Transport T] (s : Session T S) (kind : TimerKind) :
    ¬(s.state ≠ .closed ∧ (s.onTimer kind).state = .closed) := by
  rw [onTimer_state]
  exact fun h => h.1 h.2

namespace ClientConnection

variable {T S : Type} [Transport T] [Scheduler S]

/-- A client gives up as long as it has no handshake. -/
theorem onTimer_closes_iff (c : ClientConnection T S) (kind : TimerKind) :
    c.state ≠ .closed ∧ (c.onTimer kind).state = .closed ↔
      kind = .handshakeExpiry ∧ (c.state = .connecting ∨ c.state = .awaitingSchema) := by
  cases kind with
  | rateReset => exact iff_of_false (c.session.onTimer_open _) (nofun ∘ And.left)
  | batchFlush key => exact iff_of_false (c.session.onTimer_open _) (nofun ∘ And.left)
  | handshakeExpiry =>
    simp only [onTimer, expire, true_and]
    cases hsession : c.session.state <;>
      simp [state, hsession, Session.handshakeTimedOut, Session.close_state]

end ClientConnection

namespace ServerConnection

variable {T S : Type} [Transport T] [Scheduler S] {c : ServerConnection T S}

/-- A server gives up as long as it remembers no required packet. -/
theorem onTimer_closes_iff (c : ServerConnection T S) (kind : TimerKind) :
    c.state ≠ .closed ∧ (c.onTimer kind).state = .closed ↔
      kind = .handshakeExpiry ∧ c.state = .ready ∧ c.firstCame = false := by
  cases kind with
  | rateReset => exact iff_of_false (c.session.onTimer_open _) (nofun ∘ And.left)
  | batchFlush key => exact iff_of_false (c.session.onTimer_open _) (nofun ∘ And.left)
  | handshakeExpiry =>
    simp only [onTimer, expire, true_and]
    cases hsession : c.session.state <;> cases hcame : c.firstCame <;>
      simp [state, Session.isReady, hsession, Session.handshakeTimedOut, Session.close_state]

/-! ## What a server requires -/

/-- Whatever is called on a server, its settings stay. -/
theorem config_call (c : ServerConnection T S) (call : Call) :
    (c.call call).definition.config = c.definition.config := by
  by_cases hmessage : ∃ bytes, call = .message bytes
  · rcases hmessage with ⟨bytes, rfl⟩
    show (c.onMessage bytes).definition.config = c.definition.config
    by_cases hready : c.session.state = .ready
    · rw [onMessage_eq hready, (c.checkFirst_keeps bytes).1]
    · rw [onMessage_of_not_ready hready]
  · exact (c.call_keeps fun bytes heq => hmessage ⟨bytes, heq⟩).1

/-- A server that requires no packet remembers none. -/
theorem firstCame_call (hnone : c.definition.config.handshakePacket = none) (call : Call) :
    (c.call call).firstCame = c.firstCame := by
  by_cases hmessage : ∃ bytes, call = .message bytes
  · rcases hmessage with ⟨bytes, rfl⟩
    show (c.onMessage bytes).firstCame = c.firstCame
    by_cases hready : c.session.state = .ready
    · have hcheck : c.checkFirst bytes = (.ok (), c) := by simp only [checkFirst, hnone]
      rw [onMessage_eq hready, hcheck]
    · rw [onMessage_of_not_ready hready]
  · exact (c.call_keeps fun bytes heq => hmessage ⟨bytes, heq⟩).2

theorem config_run (c : ServerConnection T S) (calls : List Call) :
    (c.run calls).definition.config = c.definition.config := by
  induction calls generalizing c with
  | nil => rfl
  | cons call calls ih => exact (ih (c.call call)).trans (c.config_call call)

theorem firstCame_run (hnone : c.definition.config.handshakePacket = none) (calls : List Call) :
    (c.run calls).firstCame = c.firstCame := by
  induction calls generalizing c with
  | nil => rfl
  | cons call calls ih =>
    have hnone' : (c.call call).definition.config.handshakePacket = none := by rw [config_call, hnone]
    exact (ih hnone').trans (firstCame_call hnone call)

end ServerConnection

/-! ## Timers that close -/

namespace Endpoint

variable {T S : Type} [Transport T] [Scheduler S]

/-- Where a timer closes a connection, the handshake took too long. -/
theorem timer_closes_eq {e : Endpoint T S} {kind : TimerKind} (hopen : e.state ≠ .closed)
    (hclosed : (e.call (.timer kind)).state = .closed) :
    (e.call (.timer kind)).session = e.session.handshakeTimedOut := by
  cases e with
  | client c =>
    rcases (c.onTimer_closes_iff kind).1 ⟨hopen, hclosed⟩ with ⟨rfl, hstate⟩
    show c.expire.session = c.session.handshakeTimedOut
    have hstate' : c.session.state = .connecting ∨ c.session.state = .awaitingSchema := hstate
    rcases hstate' with hstate' | hstate' <;>
      simp only [ClientConnection.expire, ClientConnection.state, hstate']
  | server c =>
    rcases (c.onTimer_closes_iff kind).1 ⟨hopen, hclosed⟩ with ⟨rfl, hstate, hcame⟩
    have hready : c.session.isReady = true := by simpa [Session.isReady, ServerConnection.state] using hstate
    show c.expire.session = c.session.handshakeTimedOut
    simp only [ServerConnection.expire, hcame, hready, Bool.not_false, Bool.and_self, if_true]

/-- An end that gives up when its time to wait is over. -/
def Pending : Endpoint T S → Prop
  | client c => c.state = .connecting ∨ c.state = .awaitingSchema
  | server c => c.state = .ready ∧ c.firstCame = false

theorem Pending.closes {e : Endpoint T S} (h : e.Pending) :
    e.state ≠ .closed ∧ (e.onTimer .handshakeExpiry).state = .closed := by
  cases e with
  | client c => exact (c.onTimer_closes_iff _).2 ⟨rfl, h⟩
  | server c => exact (c.onTimer_closes_iff _).2 ⟨rfl, h⟩

/-- Whatever is called on a connection, and whichever timers it is brought: a timer closes a client only while
it waits for the handshake. A timer closes a server that is ready if the packet it requires is not there, but
also if it requires none. No other timer closes, and one that does counts a handshake that took too long. -/
theorem timer_closes_iff {transport : T} {e : Endpoint T S} (hnew : e.New transport) (calls : List Call)
    (kind : TimerKind) :
    (∀ c, e.run calls = .client c →
      (c.state ≠ .closed ∧ (c.onTimer kind).state = .closed ↔
        kind = .handshakeExpiry ∧ (c.state = .connecting ∨ c.state = .awaitingSchema))) ∧
      (∀ c, e.run calls = .server c →
        (c.state ≠ .closed ∧ (c.onTimer kind).state = .closed ↔
          kind = .handshakeExpiry ∧ c.state = .ready ∧
            (c.handshakeReceived = false ∨ c.definition.config.handshakePacket = none))) ∧
      ((e.run calls).state ≠ .closed → ((e.run calls).call (.timer kind)).state = .closed →
        ((e.run calls).call (.timer kind)).session = (e.run calls).session.handshakeTimedOut) := by
  refine ⟨fun c _ => c.onTimer_closes_iff kind, fun c hrun => ?_, timer_closes_eq⟩
  rw [c.onTimer_closes_iff kind]
  cases hnew with
  | client scheduler config =>
    rcases run_client (.start transport scheduler config) calls with ⟨_, hclient⟩
    rw [hclient] at hrun
    cases hrun
  | @server definition connection scheduler _ haccept =>
    rw [ServerConnection.server_run] at hrun
    cases hrun
    have hcame : (connection.run calls).definition.config.handshakePacket = none →
        (connection.run calls).firstCame = false := by
      intro hnone
      rw [connection.config_run] at hnone
      rw [ServerConnection.firstCame_run hnone]
      rcases ServerConnection.serving_eq haccept with ⟨_, _, _, _, rfl⟩
      rfl
    cases hrequired : (connection.run calls).definition.config.handshakePacket with
    | none => simp [hcame hrequired]
    | some required => simp [ServerConnection.handshakeReceived, hrequired]

namespace Late

/-- The definition of a server that requires no packet. -/
def definition : Result Definition := Definition.make [] [] .empty {}

def server : Result (ServerConnection Outbox Clock) := do
  match ServerConnection.accept (← definition) ({} : Outbox) ({} : Clock) with
  | .serving connection => return connection
  | .refused error _ => .error error

def client : Endpoint Outbox Clock := .client (.start {} {} {})

/-- The handshake of such a server. -/
def handshake : Bytes := [0x54, 0x57, 0x49, 0x52, 1, 0, 0, 1]

theorem new_server {c : ServerConnection Outbox Clock} (h : server = .ok c) :
    (Endpoint.server c).New ({} : Outbox) := by
  rcases Outcome.bind_eq_ok.1 h with ⟨definition, hmake, h⟩
  split at h
  · rename_i connection haccept
    cases h
    exact .server _ (.make (by simp) (by simp) hmake) haccept
  · cases h

end Late

/-- A server that misses nothing is closed by the timer, and a client that has its handshake is not. -/
theorem timer_closes_iff_late :
    (∃ c, Late.server = .ok c ∧ c.handshakeReceived = true ∧ c.state ≠ .closed ∧
        (c.onTimer .handshakeExpiry).state = .closed) ∧
      ∃ c, Late.client.run [.opened, .message Late.handshake] = .client c ∧ c.state = .ready ∧
        (c.onTimer .handshakeExpiry).state ≠ .closed := by
  constructor
  · have hstands : ((fun c => (c.definition.config.handshakePacket, c.state)) <$> Late.server).toOption =
        some (none, .ready) := by
      decide +kernel
    cases hserver : Late.server with
    | error error =>
      rw [hserver] at hstands
      cases hstands
    | ok c =>
      rw [hserver] at hstands
      rcases Prod.mk.inj (Option.some.inj hstands) with ⟨hnone, hready⟩
      rcases ((timer_closes_iff (Late.new_server hserver) [] .handshakeExpiry).2.1 c rfl).2
        ⟨rfl, hready, .inr hnone⟩ with ⟨hopen, hclosed⟩
      exact ⟨c, rfl, by simp [ServerConnection.handshakeReceived, hnone], hopen, hclosed⟩
  · have hnew : Late.client.New ({} : Outbox) := .client _ _
    have hready : (Late.client.run [.opened, .message Late.handshake]).state = .ready := by cbv
    have hclient : ∃ c, Late.client.run [.opened, .message Late.handshake] = .client c := run_client _ _
    rcases hclient with ⟨c, hrun⟩
    have hready' : c.state = .ready := by
      rw [hrun] at hready
      exact hready
    refine ⟨c, hrun, hready', fun hclosed => ?_⟩
    have hopen : c.state ≠ .closed := by rw [hready']; decide
    rcases ((timer_closes_iff hnew _ .handshakeExpiry).1 c hrun).1 ⟨hopen, hclosed⟩ with ⟨-, hstate | hstate⟩
    · exact absurd (hready'.symm.trans hstate) (by decide)
    · exact absurd (hready'.symm.trans hstate) (by decide)

end Endpoint

end PacketProtocol
