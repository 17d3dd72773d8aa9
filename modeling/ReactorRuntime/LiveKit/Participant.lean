import ReactorRuntime.Protocol.Messages
import ReactorRuntime.TransitionSystem.Basic

/-!
# What a participant sends

`ParticipantConnection`, for the messages that arrive: each takes a place in the line of its topic,
a packet with its bytes and a stream with the task that reads it, and is handed on when its turn
comes.  A step is a turn of the event loop: the room reports a packet or a stream, a task that reads
goes on up to its next await, or the connection is closed.  `_on_message` hands the message to the
session, which takes it later, so that nothing else happens during a turn.

`arrivals` is the history of a topic: what became of each message that arrived on it.

Left out: what is sent to the participant, its RPC calls, and what is logged.
-/

namespace ReactorRuntime.LiveKit

open ReactorRuntime.Protocol (Channel)

def maxStreamedMessageBytes : ℕ := 8 * 1024 * 1024

def maxOpenStreams : ℕ := 8

def maxInboundBytes : ℕ := 2 * maxStreamedMessageBytes

abbrev Message := List UInt8

/-- `_Inbound`, with the number of its message. -/
structure Inbound where
  id : ℕ
  data : Option Message := none
  done : Bool := false
  deriving DecidableEq

/-- A task of `_readers`, with the slot that it fills, and what it has read. -/
structure Reading where
  slot : ℕ
  channel : Channel
  data : Message := []
  /-- Whether the task has ended; `_readers` has it until its callback runs. -/
  ended : Bool := false

/-- What became of a message that arrived. -/
inductive Fate where
  /-- Its stream is open and has brought this much. -/
  | reading (data : Message)
  /-- All of it has arrived. -/
  | whole (data : Message)
  /-- It was dropped as it arrived: the connection is closed or it passed a bound. -/
  | refused
  /-- Its stream passed a bound, failed or timed out. -/
  | failed
  /-- It was dropped by the close. -/
  | cut
  deriving DecidableEq

/-- A message that arrived on a topic. -/
structure Arrival where
  id : ℕ
  fate : Fate

structure ParticipantConnection where
  closed : Bool := false
  inbound : Channel → List Inbound := fun _ => []
  inboundBytes : ℤ := 0
  readers : List Reading := []
  /-- How many messages have arrived. -/
  arrived : ℕ := 0
  /-- History: the calls of `_on_message`. -/
  handed : Channel → List Message := fun _ => []
  /-- History: what arrived. -/
  arrivals : Channel → List Arrival := fun _ => []

/-! ### The fate of a message -/

namespace Arrival

/-- Whether nothing more is to come of it. -/
def finished (a : Arrival) : Bool :=
  match a.fate with
  | .reading _ => false
  | .whole _ | .refused | .failed | .cut => true

def message (a : Arrival) : Option Message :=
  match a.fate with
  | .whole data => some data
  | .reading _ | .refused | .failed | .cut => none

/-- What becomes of the message whose stream is read, if it is that one. -/
def settle (id : ℕ) (f : Message → Fate) (a : Arrival) : Arrival :=
  match a.fate with
  | .reading data => if a.id = id then { a with fate := f data } else a
  | .whole _ | .refused | .failed | .cut => a

/-- What the close makes of a message that has not been handed on. -/
def drop (a : Arrival) : Arrival :=
  match a.fate with
  | .reading _ | .whole _ => { a with fate := .cut }
  | .refused | .failed | .cut => a

end Arrival

/-- The messages whose turn has come: everything that arrived before them is finished. -/
def ready (l : List Arrival) : List Message :=
  (l.takeWhile Arrival.finished).filterMap Arrival.message

/-- The history of a topic once the connection is closed. -/
def closeLine (l : List Arrival) : List Arrival :=
  l.takeWhile Arrival.finished ++ (l.dropWhile Arrival.finished).map Arrival.drop

/-! ### The connection -/

/-- The loop of `_deliver`: what is left of the queue, and what is handed on. -/
def handOn : List Inbound → List Inbound × List Message
  | [] => ([], [])
  | slot :: queue =>
    if slot.done then
      match slot.data with
      | none => handOn queue
      | some data => ((handOn queue).1, data :: (handOn queue).2)
    else (slot :: queue, [])

namespace ParticipantConnection

variable (s : ParticipantConnection)

def hold (size : ℕ) : Option ParticipantConnection :=
  if s.inboundBytes + size > maxInboundBytes then none
  else some { s with inboundBytes := s.inboundBytes + size }

def deliver (channel : Channel) : ParticipantConnection :=
  if s.closed then s
  else
    let (queue, messages) := handOn (s.inbound channel)
    { s with
      inbound := Function.update s.inbound channel queue
      inboundBytes := s.inboundBytes - (messages.map List.length).sum
      handed := Function.update s.handed channel (s.handed channel ++ messages) }

def arrive (channel : Channel) (fate : Fate) : ParticipantConnection :=
  { s with
    arrived := s.arrived + 1
    arrivals := Function.update s.arrivals channel (s.arrivals channel ++ [⟨s.arrived, fate⟩]) }

/-- A slot is put at the end of the line of its topic. -/
def push (channel : Channel) (slot : Inbound) : ParticipantConnection :=
  { s with inbound := Function.update s.inbound channel (s.inbound channel ++ [slot]) }

/-- What becomes of a message whose stream is read. -/
def settle (channel : Channel) (id : ℕ) (f : Message → Fate) : ParticipantConnection :=
  { s with
    arrivals := Function.update s.arrivals channel
      ((s.arrivals channel).map (Arrival.settle id f)) }

/-- What the task that fills a slot does to its own state. -/
def updateReader (id : ℕ) (f : Reading → Reading) : ParticipantConnection :=
  { s with readers := s.readers.map fun r => if r.slot = id then f r else r }

/-- A slot gets what was read for it, if that is whole, and is done. -/
def fill (channel : Channel) (id : ℕ) (data : Option Message) : ParticipantConnection :=
  { s with
    inbound := Function.update s.inbound channel ((s.inbound channel).map fun slot =>
      if slot.id = id then { slot with data, done := true } else slot) }

def receivePacket (data : Message) (channel : Channel) : ParticipantConnection :=
  if s.closed then s.arrive channel .refused
  else
    match s.hold data.length with
    | none => s.arrive channel .refused
    | some held =>
      ((held.push channel { id := s.arrived, data := some data, done := true }).arrive channel
        (.whole data)).deliver channel

def receiveStream (size : Option ℕ) (channel : Channel) : ParticipantConnection :=
  if s.closed || maxOpenStreams ≤ s.readers.length then s.arrive channel .refused
  else if size.getD 0 > maxStreamedMessageBytes then s.arrive channel .refused
  else
    { (s.push channel { id := s.arrived }).arrive channel (.reading []) with
      readers := s.readers ++ [{ slot := s.arrived, channel }] }

/-- The `finally` of `_read_stream`, once the stream was read to its end (`whole`) or not. -/
def endReading (r : Reading) (whole : Bool) : ParticipantConnection :=
  let data := if whole then some r.data else none
  let s := (s.fill r.channel r.slot data).updateReader r.slot fun r => { r with ended := true }
  if s.closed then s
  else
    let s := if data.isNone then { s with inboundBytes := s.inboundBytes - r.data.length } else s
    (s.settle r.channel r.slot fun sent => if whole then .whole sent else .failed).deliver r.channel

def readChunk (r : Reading) (chunk : Message) : ParticipantConnection :=
  if r.data.length + chunk.length > maxStreamedMessageBytes then s.endReading r false
  else
    match s.hold chunk.length with
    | none => s.endReading r false
    | some held =>
      (held.updateReader r.slot fun r => { r with data := r.data ++ chunk }).settle r.channel r.slot
        fun sent => .reading (sent ++ chunk)

/-- `_stop_reading`: a task that reads is cancelled, so that it gets no more chunks. -/
def stopReading : ParticipantConnection :=
  { s with
    inbound := fun _ => []
    inboundBytes := 0
    arrivals := fun channel => closeLine (s.arrivals channel) }

def close : ParticipantConnection := if s.closed then s else { s with closed := true }.stopReading

def drop : ParticipantConnection := { s with closed := true }.stopReading

def reader? (id : ℕ) : Option Reading := s.readers.find? fun r => r.slot = id && !r.ended

end ParticipantConnection

/-! ### Runs -/

/-- What happens next. -/
inductive ParticipantConnection.Label where
  | packet (data : Message) (channel : Channel)
  | stream (size : Option ℕ) (channel : Channel)
  /-- A stream that is read brings a chunk. -/
  | chunk (id : ℕ) (data : Message)
  /-- A stream that is read is at its end. -/
  | streamEnds (id : ℕ)
  /-- What a task awaits raises: an error of the stream, the timeout, the cancellation. -/
  | readFails (id : ℕ)
  /-- The callback of a task that has ended. -/
  | taskDone (id : ℕ)
  | close
  | drop

/-- The next state. -/
def ParticipantConnection.step (s : ParticipantConnection) : Label → Option ParticipantConnection
  | .packet data channel => some (s.receivePacket data channel)
  | .stream size channel => some (s.receiveStream size channel)
  | .chunk id data =>
    if s.closed then none else (s.reader? id).map fun r => s.readChunk r data
  | .streamEnds id => if s.closed then none else (s.reader? id).map fun r => s.endReading r true
  | .readFails id => (s.reader? id).map fun r => s.endReading r false
  | .taskDone id =>
    if s.readers.any fun r => r.slot = id && r.ended then
      some { s with readers := s.readers.filter fun r => r.slot ≠ id }
    else none
  | .close => some s.close
  | .drop => some s.drop

def participantConnections :
    TransitionSystem ParticipantConnection ParticipantConnection.Label where
  init := {}
  step := ParticipantConnection.step

end ReactorRuntime.LiveKit
