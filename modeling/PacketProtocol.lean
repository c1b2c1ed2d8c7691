import PacketProtocol.Batcher
import PacketProtocol.Binary.Binary32
import PacketProtocol.Binary.Binary64
import PacketProtocol.Binary.Format
import PacketProtocol.Binary.Scaled
import PacketProtocol.Binary.Shortest
import PacketProtocol.Bytes
import PacketProtocol.Client
import PacketProtocol.Clock
import PacketProtocol.CloseCode
import PacketProtocol.CloseNotice
import PacketProtocol.Config.Environment
import PacketProtocol.Config.File
import PacketProtocol.Config.Level
import PacketProtocol.Config.Settings
import PacketProtocol.Cursor
import PacketProtocol.Decimal
import PacketProtocol.DeferredQueue
import PacketProtocol.Definition
import PacketProtocol.Dispatcher
import PacketProtocol.Drive
import PacketProtocol.Endpoint
import PacketProtocol.EnumPackage
import PacketProtocol.Error
import PacketProtocol.Fault
import PacketProtocol.Flags
import PacketProtocol.Frame
import PacketProtocol.Handshake
import PacketProtocol.Hub
import PacketProtocol.Journal
import PacketProtocol.Link
import PacketProtocol.Metrics
import PacketProtocol.Numerals
import PacketProtocol.Outbox
import PacketProtocol.Packet.Basic
import PacketProtocol.Packet.Record
import PacketProtocol.Parser
import PacketProtocol.Payload.Decode
import PacketProtocol.Payload.Encode
import PacketProtocol.Payload.Fraction
import PacketProtocol.Payload.Kind
import PacketProtocol.Proofs.Agreement
import PacketProtocol.Proofs.Announcing
import PacketProtocol.Proofs.Arity
import PacketProtocol.Proofs.Arming
import PacketProtocol.Proofs.Batching
import PacketProtocol.Proofs.Binary.Nearest
import PacketProtocol.Proofs.Binary.Rounding
import PacketProtocol.Proofs.Binary.Shortest
import PacketProtocol.Proofs.Binary.Single
import PacketProtocol.Proofs.Books
import PacketProtocol.Proofs.Broadcasting
import PacketProtocol.Proofs.Callbacks
import PacketProtocol.Proofs.Calls
import PacketProtocol.Proofs.Clocks
import PacketProtocol.Proofs.Conservation
import PacketProtocol.Proofs.Counting
import PacketProtocol.Proofs.Decimals
import PacketProtocol.Proofs.Declared
import PacketProtocol.Proofs.Decoded
import PacketProtocol.Proofs.Deferring
import PacketProtocol.Proofs.Delimiting
import PacketProtocol.Proofs.Delivery
import PacketProtocol.Proofs.Dispatching
import PacketProtocol.Proofs.Draining
import PacketProtocol.Proofs.Driving
import PacketProtocol.Proofs.Elapsing
import PacketProtocol.Proofs.Emission
import PacketProtocol.Proofs.Established
import PacketProtocol.Proofs.Expiry
import PacketProtocol.Proofs.FirstPacket
import PacketProtocol.Proofs.Fractions
import PacketProtocol.Proofs.Framing
import PacketProtocol.Proofs.Gathering
import PacketProtocol.Proofs.Groups
import PacketProtocol.Proofs.Hostile
import PacketProtocol.Proofs.Isolation
import PacketProtocol.Proofs.Keys
import PacketProtocol.Proofs.Ledger
import PacketProtocol.Proofs.Lifecycle
import PacketProtocol.Proofs.Limits
import PacketProtocol.Proofs.Lossless
import PacketProtocol.Proofs.Machine.Operations
import PacketProtocol.Proofs.Machine.Payload
import PacketProtocol.Proofs.Machine.Reader
import PacketProtocol.Proofs.Machine.Records
import PacketProtocol.Proofs.Machine.Schema
import PacketProtocol.Proofs.Machine.Session
import PacketProtocol.Proofs.Marking
import PacketProtocol.Proofs.Membership
import PacketProtocol.Proofs.Messages
import PacketProtocol.Proofs.Metering
import PacketProtocol.Proofs.Milestones
import PacketProtocol.Proofs.Mirroring
import PacketProtocol.Proofs.Numbering
import PacketProtocol.Proofs.Outcome
import PacketProtocol.Proofs.Overtaking
import PacketProtocol.Proofs.Pacing
import PacketProtocol.Proofs.Packing
import PacketProtocol.Proofs.Parting
import PacketProtocol.Proofs.Payload
import PacketProtocol.Proofs.Rates
import PacketProtocol.Proofs.Reading
import PacketProtocol.Proofs.Receiving
import PacketProtocol.Proofs.Record
import PacketProtocol.Proofs.Refusals
import PacketProtocol.Proofs.Registering
import PacketProtocol.Proofs.Releasing
import PacketProtocol.Proofs.Resending
import PacketProtocol.Proofs.Retelling
import PacketProtocol.Proofs.RoundTrip
import PacketProtocol.Proofs.Routing
import PacketProtocol.Proofs.Rows
import PacketProtocol.Proofs.Sections
import PacketProtocol.Proofs.Sectors
import PacketProtocol.Proofs.Sending
import PacketProtocol.Proofs.Switching
import PacketProtocol.Proofs.Tables
import PacketProtocol.Proofs.Timers
import PacketProtocol.Proofs.Varint
import PacketProtocol.Proofs.Windows
import PacketProtocol.RateLimiter
import PacketProtocol.Registry
import PacketProtocol.Schema.Basic
import PacketProtocol.Schema.Codec
import PacketProtocol.Schema.Columns
import PacketProtocol.Sector
import PacketProtocol.Server
import PacketProtocol.Session
import PacketProtocol.Text.Hex
import PacketProtocol.Text.Numeral
import PacketProtocol.Text.Quoted
import PacketProtocol.Text.Utf8
import PacketProtocol.Text.Visible
import PacketProtocol.Toml.Document
import PacketProtocol.Toml.Table
import PacketProtocol.Toml.Text
import PacketProtocol.Transport
import PacketProtocol.Value
import PacketProtocol.Varint
import PacketProtocol.Wire
import PacketProtocol.ZigZag
