import ReactorRuntime.Core.MediaBundle
import ReactorRuntime.LiveKit.StreamFramer
import ReactorRuntime.Python.Text
import ReactorRuntime.TransitionSystem.Basic

/-!
# The input tracks of a room

`RoomInputs`, for its byte streams.  A step is a turn of the event loop: the room reports a stream,
a participant that left or its own end, or the task that reads a stream goes on with the next thing
that its reader yields.  What arrives waits in the reader until then.  The sink takes each frame at
once, so that nothing else happens during a turn.

A stream is known by its place in `accepted`, where the source compares objects.  The session's
answer to a claim is an input.

Left out: remote tracks, but for what they do to `_held`; and what is logged.
-/

namespace ReactorRuntime.LiveKit

open ReactorRuntime.Core (TrackKind)
open ReactorRuntime.Lists
open ReactorRuntime.Python (Json Unicode readInt)

def protocolTopics : List String := ["reactor.data", "reactor.control"]

def minStreamRate : ℕ := 8000

def maxStreamRate : ℕ := 192000

def maxStreamChannels : ℕ := 8

structure InputTrack where
  kind : TrackKind
  rate : ℕ

/-- What a room's inputs are made with. -/
structure InputSetup (σ : Type) where
  unicode : Unicode
  resampler : Resampler σ
  inputs : List (String × InputTrack)
  mediaInputs : List (String × String)

def InputSetup.mapped {σ : Type} (setup : InputSetup σ) : List (String × String) :=
  setup.mediaInputs.filter fun entry =>
    entry.1 ∉ protocolTopics && (setup.inputs.lookup entry.2).isSome

def intAttribute (unicode : Unicode) (attributes : List (String × String)) (key : String)
    (default low high : ℕ) : Option ℕ :=
  match attributes.lookup key with
  | none => some default
  | some value =>
    match readInt unicode value.toList with
    | none => none
    | some parsed => if low ≤ parsed ∧ parsed ≤ high then some parsed.toNat else none

/-- What a reader says of its stream. -/
structure StreamInfo where
  streamId : String
  topic : String
  attributes : List (String × String) := []

def StreamInfo.metadata (info : StreamInfo) : String :=
  Json.dumps (.dict [(.text "stream_id", .str (.text info.streamId)),
    (.text "attributes", .dict (info.attributes.map fun entry =>
      (.text entry.1, .str (.text entry.2))))])

/-- What a reader yields next. -/
inductive Yield where
  | chunk (data : List UInt8)
  /-- The iteration ends. -/
  | ends
  /-- The reader raises. -/
  | fails
  deriving DecidableEq

/-- Whether a reader yields nothing more. -/
def Yield.isLast : Yield → Bool
  | .chunk _ => false
  | .ends | .fails => true

inductive Ending where
  /-- Its reader ended or failed. -/
  | own
  | superseded
  | senderLeft
  | roomClosed
  deriving DecidableEq

/-- `_Stream`, with its reader and its task. -/
structure InputStream (σ : Type) where
  info : StreamInfo
  sender : String
  connId : ℕ
  track : String
  framer : StreamFramer σ
  /-- What has arrived and is still to be read. -/
  unread : List Yield := []
  readerClosed : Bool := false
  cancelled : Bool := false
  /-- Whether the task has ended. -/
  done : Bool := false
  /-- History: the rates and the channels that the framer was made with. -/
  rate : ℕ
  streamRate : ℕ
  channels : ℕ
  /-- History: what has arrived. -/
  arrived : List Yield := []
  /-- History: the chunks that the framer was given. -/
  pushed : List (List UInt8) := []
  /-- History: how the stream ended, once it has. -/
  ending : Option Ending := none

structure SunkFrame where
  stream : ℕ
  topic : String
  connId : ℕ
  track : String
  data : List ℤ
  metadata : String
  deriving DecidableEq

def InputStream.frame {σ : Type} (st : InputStream σ) (i : ℕ) (data : List ℤ) : SunkFrame where
  stream := i
  topic := st.info.topic
  connId := st.connId
  track := st.track
  data := data
  metadata := st.info.metadata

def InputStream.endFrame {σ : Type} (st : InputStream σ) (i : ℕ) : SunkFrame where
  stream := i
  topic := st.info.topic
  connId := st.connId
  track := st.track
  data := []
  metadata := Json.dumps
    (.dict [(.text "stream_id", .str (.text st.info.streamId)), (.text "ended", .bool true)])

structure InputHold where
  connId : ℕ
  streamed : Bool := false

structure RoomInputs (σ : Type) where
  held : String → Option InputHold := fun _ => none
  /-- The open stream of each topic. -/
  streams : List (String × ℕ) := []
  /-- The streams that were accepted. -/
  accepted : List (InputStream σ) := []
  /-- History: what the sink was handed. -/
  sunk : List SunkFrame := []

namespace RoomInputs

variable {σ : Type} (setup : InputSetup σ) (s : RoomInputs σ)

def update (i : ℕ) (f : InputStream σ → InputStream σ) : RoomInputs σ :=
  { s with accepted := s.accepted.modify i f }

/-- `_claim`, unless it is refused. -/
def claim (track : String) (connId : ℕ) (streamed granted : Bool) : Option (RoomInputs σ) :=
  match s.held track with
  | some hold =>
    if hold.connId = connId then
      let hold := { hold with streamed := hold.streamed || streamed }
      some { s with held := Function.update s.held track (some hold) }
    else none
  | none =>
    if granted then some { s with held := Function.update s.held track (some { connId, streamed }) }
    else none

def endStream (ending : Ending) (i : ℕ) : RoomInputs σ :=
  match s.accepted[i]? with
  | none => s
  | some st =>
    let (frames, framer) := st.framer.flush setup.resampler
    { (s.update i fun st => { st with framer, readerClosed := true, ending := some ending }) with
      streams :=
        if s.streams.lookup st.info.topic = some i then
          s.streams.filter fun entry => entry.1 ≠ st.info.topic
        else s.streams
      sunk := s.sunk ++ frames.map (st.frame i) ++ [st.endFrame i] }

def openStream (st : InputStream σ) : RoomInputs σ :=
  { s with
    streams := Dict.set s.streams st.info.topic s.accepted.length
    accepted := s.accepted ++ [st] }

def onByteStream (info : StreamInfo) (sender : String) (connId : ℕ) (granted : Bool) :
    RoomInputs σ :=
  match setup.mapped.lookup info.topic with
  | none => s
  | some track =>
    match setup.inputs.lookup track with
    | none => s
    | some input =>
      if input.kind ≠ .audio then s
      else
        match intAttribute setup.unicode info.attributes "sample_rate" input.rate minStreamRate
            maxStreamRate,
          intAttribute setup.unicode info.attributes "num_channels" 1 1 maxStreamChannels with
        | some streamRate, some channels =>
          match s.claim track connId true granted with
          | none => s
          | some s =>
            let s := match s.streams.lookup info.topic with
              | some previous => s.endStream setup .superseded previous
              | none => s
            s.openStream
              { info, sender, connId, track, rate := input.rate, streamRate, channels
                framer := StreamFramer.new setup.resampler input.rate streamRate channels }
        | _, _ => s

/-- The reader of a stream gets something. -/
def arrives (i : ℕ) (y : Yield) : Option (RoomInputs σ) :=
  match s.accepted[i]? with
  | none => none
  | some st =>
    if st.readerClosed || st.arrived.any Yield.isLast then none
    else some (s.update i fun st =>
      { st with unread := st.unread ++ [y], arrived := st.arrived ++ [y] })

/-- `_feed` is through with its reader. -/
def finish (i : ℕ) (topic : String) : RoomInputs σ :=
  let s := s.update i fun st => { st with readerClosed := true, done := true }
  if s.streams.lookup topic = some i then s.endStream setup .own i else s

/-- The task of a stream goes on: it was cancelled, or it has the next thing from its reader. -/
def resumes (i : ℕ) : Option (RoomInputs σ) :=
  match s.accepted[i]? with
  | none => none
  | some st =>
    if st.done then none
    else if st.cancelled then
      some (s.update i fun st => { st with readerClosed := true, done := true })
    else
      match st.unread with
      | [] => none
      | .chunk data :: unread =>
        if s.streams.lookup st.info.topic = some i then
          let (frames, framer) := st.framer.push setup.resampler data
          some { (s.update i fun st => { st with framer, unread, pushed := st.pushed ++ [data] }) with
            sunk := s.sunk ++ frames.map (st.frame i) }
        else some (s.finish setup i st.info.topic)
      | .ends :: _ | .fails :: _ => some (s.finish setup i st.info.topic)

/-- A reader that was closed ends, whatever waits in it. -/
def readerStops (i : ℕ) : Option (RoomInputs σ) :=
  match s.accepted[i]? with
  | none => none
  | some st =>
    if st.done || st.cancelled || !st.readerClosed then none
    else some (s.finish setup i st.info.topic)

/-- Whether an open stream is of a sender. -/
def ofSender (sender : String) (entry : String × ℕ) : Bool :=
  s.accepted[entry.2]?.any fun st => st.sender = sender

def cancel (which : InputStream σ → Bool) : RoomInputs σ :=
  { s with accepted := s.accepted.map fun st =>
      if which st && !st.done then { st with cancelled := true } else st }

/-- `release`, up to the tracks that wait. -/
def release (sender : String) (connId : ℕ) : RoomInputs σ :=
  let s := (s.streams.filter (s.ofSender sender)).foldl
    (fun s entry => s.endStream setup .senderLeft entry.2) s
  { (s.cancel fun st => st.sender = sender) with
    held := fun track =>
      if (s.held track).any fun hold => hold.connId = connId then none else s.held track }

def close : RoomInputs σ :=
  (s.streams.foldl (fun s entry => s.endStream setup .roomClosed entry.2) s).cancel fun _ => true

/-- What `on_track_gone` does to `_held`, where no other track of the sender feeds the input. -/
def trackGone (target : String) (connId : ℕ) : RoomInputs σ :=
  match s.held target with
  | none => s
  | some hold =>
    if hold.connId ≠ connId || hold.streamed then s
    else { s with held := Function.update s.held target none }

/-- What happens next. -/
inductive Label where
  | opens (info : StreamInfo) (sender : String) (connId : ℕ) (granted : Bool)
  | arrives (i : ℕ) (y : Yield)
  | resumes (i : ℕ)
  | readerStops (i : ℕ)
  | release (sender : String) (connId : ℕ)
  | close
  /-- A remote track is to feed an input. -/
  | trackClaims (target : String) (connId : ℕ) (granted : Bool)
  | trackGone (target : String) (connId : ℕ)

/-- The next state. -/
def step : Label → Option (RoomInputs σ)
  | .opens info sender connId granted => some (s.onByteStream setup info sender connId granted)
  | .arrives i y => s.arrives i y
  | .resumes i => s.resumes setup i
  | .readerStops i => s.readerStops setup i
  | .release sender connId => some (s.release setup sender connId)
  | .close => some (s.close setup)
  | .trackClaims target connId granted => some ((s.claim target connId false granted).getD s)
  | .trackGone target connId => some (s.trackGone target connId)

end RoomInputs

def roomInputs {σ : Type} (setup : InputSetup σ) :
    TransitionSystem (RoomInputs σ) RoomInputs.Label where
  init := {}
  step := RoomInputs.step setup

end ReactorRuntime.LiveKit
