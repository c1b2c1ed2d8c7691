import PacketProtocol.Bytes
import PacketProtocol.Error
/-!
# Frames

Messages on a byte stream: each is written behind its length in four octets, most significant first.
A message over a mebibyte is refused in both directions.
-/

namespace PacketProtocol

/-- The longest message of a frame. -/
def maxFrameLength : Nat := 1048576

/-- Why a frame was refused. -/
def frameTooBig : String := "frame size too big"

/-! ## Reading -/

/-- What was read from a stream and is not yet a whole message. -/
structure FrameReader where
  /-- Octets that follow what was taken apart. -/
  buffer : Bytes := []
  /-- The length of the message the buffer begins with, once that was read. -/
  expected : Option Nat := none
deriving DecidableEq, Repr, Inhabited

namespace FrameReader

/-- More was read. -/
def push (r : FrameReader) (bytes : Bytes) : FrameReader := { r with buffer := r.buffer ++ bytes }

/-- Takes a message of a known length off a buffer, if it is all there. -/
def takeMessage (length : Nat) (buffer : Bytes) : Option Bytes × FrameReader :=
  if buffer.length < length then (none, ⟨buffer, some length⟩)
  else (some (buffer.take length), ⟨buffer.drop length, none⟩)

/-- The next message, if it is all there. -/
def next (r : FrameReader) : Except String (Option Bytes × FrameReader) :=
  match r.expected with
  | some length => .ok (takeMessage length r.buffer)
  | none =>
    if r.buffer.length < 4 then .ok (none, r)
    else
      let length := Bytes.toNat (r.buffer.take 4)
      if maxFrameLength < length then .error frameTooBig
      else .ok (takeMessage length (r.buffer.drop 4))

/-- Counts the buffered octets, with those of a length that was read already. -/
def size (r : FrameReader) : Nat := r.buffer.length + if r.expected.isSome then 4 else 0

theorem takeMessage_size {length : Nat} {buffer message : Bytes} {r : FrameReader}
    (h : takeMessage length buffer = (some message, r)) : r.size ≤ buffer.length := by
  unfold takeMessage at h
  split at h
  · simp at h
  · simp only [Prod.mk.injEq, Option.some.injEq] at h
    obtain ⟨-, rfl⟩ := h
    simp [size]

/-- Taking a message makes the reader smaller. -/
theorem next_size_lt {r rest : FrameReader} {message : Bytes}
    (h : r.next = .ok (some message, rest)) : rest.size < r.size := by
  unfold next at h
  split at h
  · rename_i length he
    simp only [Except.ok.injEq] at h
    have := takeMessage_size h
    simp [size, he] at this ⊢
    omega
  · split at h
    · simp at h
    · simp only at h
      split at h
      · simp at h
      · simp only [Except.ok.injEq] at h
        have := takeMessage_size h
        simp [size] at this ⊢
        omega

/-- All messages that are whole, and the reader after them, or why nothing can follow. -/
def messages (r : FrameReader) : List Bytes × Except String FrameReader :=
  match _h : r.next with
  | .error text => ([], .error text)
  | .ok (none, rest) => ([], .ok rest)
  | .ok (some message, rest) =>
    let (others, last) := rest.messages
    (message :: others, last)
termination_by r.size
decreasing_by exact next_size_lt _h

/-- What is wrong with a stream that ends here. -/
def endFault (r : FrameReader) : Option String :=
  if r.buffer.isEmpty then none else some "bytes remaining on stream"

end FrameReader

/-! ## Writing -/

/-- The writing half of a stream, with frames that are not written out yet. -/
structure FrameWriter where
  buffer : Bytes := []
  /-- All that was written out. -/
  written : Bytes := []
  /-- Whether the peer is gone, so that nothing can be written. -/
  peerGone : Bool := false
deriving DecidableEq, Repr, Inhabited

namespace FrameWriter

/-- A buffer of this size is written out before a frame is added. -/
def flushThreshold : Nat := 8192

/-- Writes the buffer out. -/
def flush (w : FrameWriter) : Result Unit × FrameWriter :=
  if w.buffer.isEmpty then (.ok (), w)
  else if w.peerGone then (.error (.stream "broken pipe"), w)
  else (.ok (), { w with buffer := [], written := w.written ++ w.buffer })

/-- Puts the frame of a message into the buffer. -/
def append (w : FrameWriter) (message : Bytes) : Result Unit × FrameWriter :=
  if maxFrameLength < message.length then (.error (.stream frameTooBig), w)
  else
    let frame := Bytes.bigEndian 4 message.length ++ message
    (.ok (), { w with buffer := w.buffer ++ frame })

/-- Adds a frame, behind a buffer that is not too full. -/
def push (w : FrameWriter) (message : Bytes) : Result Unit × FrameWriter :=
  if w.buffer.length < flushThreshold then w.append message
  else
    match w.flush with
    | (.ok (), w) => w.append message
    | (.error e, w) => (.error e, w)

end FrameWriter

end PacketProtocol
