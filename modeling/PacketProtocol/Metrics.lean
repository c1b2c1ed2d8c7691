/-!
# Metrics

Counters of what connections do. What is counted is a `Count`; `Metrics.record` adds it up. Counters
are 64 bits wide and wrap, but the number of active connections never falls below zero.
-/

namespace PacketProtocol

/-- One thing that happened to a connection. -/
inductive Count where
  | connectionEstablished
  | connectionClosed
  | handshakeAttempt
  | handshakeSuccess
  | handshakeFailed
  /-- A message of so many octets was written to the transport. -/
  | messageSent (size : Nat)
  /-- A message of so many octets was read from the transport. -/
  | messageReceived (size : Nat)
  /-- A packet was handed to the transport or a batch. -/
  | packetSent
  /-- A packet was delivered to listeners. -/
  | packetReceived
  /-- A batched message was emitted. -/
  | batchFlushed
  /-- A packet was held back by the rate limit. -/
  | packetDeferred
  /-- An inbound packet was over the rate limit. -/
  | rateLimitHit
  /-- A connection was closed for its peer's traffic. -/
  | abuseClose
  /-- A listener returned an error. -/
  | listenerError
deriving DecidableEq, Repr

/-- What has a name, with a size if it is a message. -/
def Count.ofName? (name : String) (size : Nat) : Option Count :=
  match name with
  | "connection_established" => some .connectionEstablished
  | "connection_closed" => some .connectionClosed
  | "handshake_attempt" => some .handshakeAttempt
  | "handshake_success" => some .handshakeSuccess
  | "handshake_failed" => some .handshakeFailed
  | "message_sent" => some (.messageSent size)
  | "message_received" => some (.messageReceived size)
  | "packet_sent" => some .packetSent
  | "packet_received" => some .packetReceived
  | "batch_flushed" => some .batchFlushed
  | "packet_deferred" => some .packetDeferred
  | "rate_limit_hit" => some .rateLimitHit
  | "abuse_close" => some .abuseClose
  | "listener_error" => some .listenerError
  | _ => none

structure Metrics where
  connectionsTotal : UInt64 := 0
  connectionsActive : UInt64 := 0
  handshakesTotal : UInt64 := 0
  handshakesSuccess : UInt64 := 0
  handshakesFailed : UInt64 := 0
  packetsSent : UInt64 := 0
  packetsReceived : UInt64 := 0
  bytesSent : UInt64 := 0
  bytesReceived : UInt64 := 0
  batchesFlushed : UInt64 := 0
  packetsDeferred : UInt64 := 0
  rateLimitHits : UInt64 := 0
  abuseCloses : UInt64 := 0
  listenerErrors : UInt64 := 0
deriving DecidableEq, Repr, Inhabited

namespace Metrics

/-- The counters after one more thing happened. -/
def record (m : Metrics) : Count → Metrics
  | .connectionEstablished =>
    { m with
      connectionsTotal := m.connectionsTotal + 1
      connectionsActive := m.connectionsActive + 1 }
  | .connectionClosed =>
    { m with
      connectionsActive := if m.connectionsActive = 0 then 0 else m.connectionsActive - 1 }
  | .handshakeAttempt => { m with handshakesTotal := m.handshakesTotal + 1 }
  | .handshakeSuccess => { m with handshakesSuccess := m.handshakesSuccess + 1 }
  | .handshakeFailed => { m with handshakesFailed := m.handshakesFailed + 1 }
  | .messageSent size => { m with bytesSent := m.bytesSent + UInt64.ofNat size }
  | .messageReceived size => { m with bytesReceived := m.bytesReceived + UInt64.ofNat size }
  | .packetSent => { m with packetsSent := m.packetsSent + 1 }
  | .packetReceived => { m with packetsReceived := m.packetsReceived + 1 }
  | .batchFlushed => { m with batchesFlushed := m.batchesFlushed + 1 }
  | .packetDeferred => { m with packetsDeferred := m.packetsDeferred + 1 }
  | .rateLimitHit => { m with rateLimitHits := m.rateLimitHits + 1 }
  | .abuseClose => { m with abuseCloses := m.abuseCloses + 1 }
  | .listenerError => { m with listenerErrors := m.listenerErrors + 1 }

/-- The counters after more things happened, in order. -/
def recordAll (m : Metrics) (counts : List Count) : Metrics := counts.foldl record m

/-- All counters with their names, for reports. -/
def counters (m : Metrics) : List (String × UInt64) :=
  [("connections_total", m.connectionsTotal), ("connections_active", m.connectionsActive),
    ("handshakes_total", m.handshakesTotal), ("handshakes_success", m.handshakesSuccess),
    ("handshakes_failed", m.handshakesFailed), ("packets_sent", m.packetsSent),
    ("packets_received", m.packetsReceived), ("bytes_sent", m.bytesSent),
    ("bytes_received", m.bytesReceived), ("batches_flushed", m.batchesFlushed),
    ("packets_deferred", m.packetsDeferred), ("rate_limit_hits", m.rateLimitHits),
    ("abuse_closes", m.abuseCloses), ("listener_errors", m.listenerErrors)]

end Metrics

end PacketProtocol
