import ReactorRuntime.Core.MediaBundle
import ReactorRuntime.Transport.FrameQueue
import ReactorRuntime.Transport.MediaPacer
import ReactorRuntime.TransitionSystem.Basic

/-!
# The media of a room, frame by frame

`RoomPacer` and the part of `RoomConnection` that takes its frames to the room.  A step is what one
thread does under the pacer's lock or between two of its locks: the producer (`FrameQueue`); the
pacing thread, which takes a frame under the lock and hands its tracks to the room after that; who
flushes; and the event loop, which makes the callbacks that wait for it and feeds the audio sources.

`submitted`, `handed` and `sources` are history: the frames of the chunks that were submitted, those
that were handed to `_send_frame`, and those of which a source was handed a track, with the newest
flush that had returned by then.  A flush has the number that the epoch gets with it.

Left out: times, the data of frames, what is logged, and what a source does with what it is handed.
-/

namespace ReactorRuntime.LiveKit

open ReactorRuntime.Core (TrackKind)
open ReactorRuntime.Transport (AUDIO_PUMP_MAX FrameQueue PacedFrame)

/-- A track of a frame: its name in the bundle, the name of its `info`, whether its picture has
three dimensions, and whether there are any samples. -/
structure RoomTrack where
  name : String
  infoName : String
  kind : TrackKind
  flat : Bool := true
  sized : Bool := true
  deriving DecidableEq

abbrev RoomFrame := PacedFrame (List RoomTrack)

inductive LoopCall where
  | queueAudio (track : String) (frame : RoomFrame)
  | clearAudio
  deriving DecidableEq

/-- The pacing thread; `none` is a black frame. -/
inductive PacingThread where
  | none
  /-- It is at the head of its loop. -/
  | resting
  /-- It goes on to its next tick. -/
  | due
  /-- The tick has taken what it is to dispatch, and released the lock. -/
  | taken (frame : Option RoomFrame)
  /-- `_send_frame`, with the tracks that it has not come to. -/
  | sending (frame : Option RoomFrame) (tracks : List RoomTrack)
  | ended

def PacingThread.frame? : PacingThread → Option RoomFrame
  | .taken frame | .sending frame _ => frame
  | .none | .resting | .due | .ended => Option.none

/-- `RoomPacer` and `RoomConnection`; `video` and `audio` are the names of the tracks that have a
source. -/
structure RoomMedia where
  video : List String
  audio : List String
  pacer : FrameQueue (List RoomTrack) := {}
  blackPending : Bool := false
  /-- Whether `_frame_dims` is set. -/
  frameDims : Bool := false
  thread : PacingThread := .none
  /-- The calls of `flush_media` that have flushed the pacer, by the number of the flush. -/
  flushing : List ℕ := []
  /-- The callbacks that wait for the event loop. -/
  calls : List LoopCall := []
  /-- The audio that waits for the pump of each track. -/
  pending : String → List RoomFrame := fun _ => []
  /-- Whether the pumps are cancelled. -/
  cancelled : Bool := false
  /-- History: how many callbacks the event loop has made. -/
  made : ℕ := 0
  /-- History: the flushes that have returned, each with how many callbacks were scheduled by then,
  those that were made included. -/
  returned : List (ℕ × ℕ) := []
  /-- History: the frames handed to `_send_frame`. -/
  handed : List RoomFrame := []
  /-- History: the frames that a source was handed a track of. -/
  sources : List (RoomFrame × ℕ) := []

namespace RoomMedia

variable (s : RoomMedia)

def newest : ℕ := (s.returned.map Prod.fst).foldr max 0

/-! ### The pacer -/

/-- `flush`, which is the first part of `flush_media`. -/
def flush (hold : Bool) : RoomMedia :=
  { s with
    pacer := s.pacer.flush
    blackPending := !hold
    flushing := s.flushing ++ [s.pacer.epoch + 1] }

/-- `_clear_audio` is scheduled, and `flush_media` returns. -/
def flushReturns (flush : ℕ) : RoomMedia :=
  { s with
    flushing := s.flushing.erase flush
    calls := s.calls ++ [.clearAudio]
    returned := s.returned ++ [(flush, s.made + s.calls.length + 1)] }

def start : RoomMedia :=
  if !s.pacer.stopped || s.pacer.closed then s
  else { s with pacer := { s.pacer with stopped := false }, thread := .resting }

/-- The first part of `stop`. -/
def stop : RoomMedia := { s with pacer := { s.pacer with stopped := true, closed := true } }

def loopHead : Option RoomMedia :=
  match s.thread with
  | .resting => some { s with thread := if s.pacer.stopped then .ended else .due }
  | .none | .due | .taken _ | .sending _ _ | .ended => none

/-- Whether the first video track of a frame has a picture of three dimensions. -/
def showsDims (frame : RoomFrame) : Bool :=
  match frame.content.find? fun t => t.kind = .video with
  | some track => track.flat
  | none => false

/-- The part of `_emit_one_tick` under the lock. -/
def tick : Option RoomMedia :=
  match s.thread with
  | .due =>
    match s.pacer.take with
    | some (frame, pacer) => some { s with
        pacer
        blackPending := false
        frameDims := s.frameDims || showsDims frame
        thread := .taken (some frame) }
    | none =>
      if s.blackPending then some { s with
        blackPending := false
        thread := if s.frameDims then .taken none else .resting }
      else some { s with thread := .resting }
  | .none | .resting | .taken _ | .sending _ _ | .ended => none

/-! ### The connection -/

def blackTracks : List RoomTrack :=
  s.video.map fun name => { name, infoName := name, kind := .video }

/-- `_dispatch`: `_send_frame` begins. -/
def dispatch : Option RoomMedia :=
  match s.thread with
  | .taken (some frame) => some { s with
      handed := s.handed ++ [frame]
      thread := .sending (some frame) frame.content }
  | .taken none => some { s with thread := .sending none s.blackTracks }
  | .none | .resting | .due | .sending _ _ | .ended => none

def key (track : RoomTrack) : String :=
  if track.name ∈ s.video ∨ track.name ∈ s.audio then track.name else track.infoName

def capture (frame : Option RoomFrame) : RoomMedia :=
  { s with sources := s.sources ++ frame.toList.map fun f => (f, s.newest) }

/-- What `_send_frame` does with one track: a picture goes to its source, and sound to the event
loop. -/
def sendTrack (frame : Option RoomFrame) (track : RoomTrack) : RoomMedia :=
  match track.kind with
  | .video => if s.key track ∈ s.video then s.capture frame else s
  | .audio =>
    if s.key track ∈ s.audio ∧ track.sized then
      { s with calls := s.calls ++ frame.toList.map (.queueAudio (s.key track)) }
    else s

/-- `_send_frame` comes to its next track, or it is through. -/
def send : Option RoomMedia :=
  match s.thread with
  | .sending frame (track :: tracks) =>
    some { s.sendTrack frame track with thread := .sending frame tracks }
  | .sending _ [] => some { s with thread := .resting }
  | .none | .resting | .due | .taken _ | .ended => none

/-- `_send_frame` raises, which `_dispatch` absorbs. -/
def sendRaises : Option RoomMedia :=
  match s.thread with
  | .sending _ _ => some { s with thread := .resting }
  | .none | .resting | .due | .taken _ | .ended => none

def queueAudio (track : String) (frame : RoomFrame) : RoomMedia :=
  let waiting := s.pending track
  let kept := if AUDIO_PUMP_MAX ≤ waiting.length then waiting.tail else waiting
  { s with pending := Function.update s.pending track (kept ++ [frame]) }

def clearAudio : RoomMedia := { s with pending := fun _ => [] }

/-- The event loop makes the next callback. -/
def call : Option RoomMedia :=
  match s.calls with
  | .queueAudio track frame :: calls =>
    some { s.queueAudio track frame with calls, made := s.made + 1 }
  | .clearAudio :: calls => some { s.clearAudio with calls, made := s.made + 1 }
  | [] => none

/-- `_pump_audio` hands a frame to the source of its track. -/
def pump (track : String) : Option RoomMedia :=
  match s.cancelled, s.pending track with
  | false, frame :: waiting =>
    some { s.capture (some frame) with pending := Function.update s.pending track waiting }
  | _, _ => none

/-- The last part of `stop`, once the thread has ended. -/
def joined : Option RoomMedia :=
  match s.thread with
  | .none | .ended => if s.pacer.closed then some { s with pacer := s.pacer.clear } else none
  | .resting | .due | .taken _ | .sending _ _ => none

/-- The end of `close`, once the pacer was stopped, in time or not. -/
def closeEnds : Option RoomMedia :=
  if s.pacer.closed then some { s.clearAudio with cancelled := true } else none

end RoomMedia

/-! ### Runs -/

/-- What happens next. -/
inductive RoomMedia.Label where
  | producer (l : FrameQueue.Label (List RoomTrack))
  | flush (hold : Bool)
  | flushReturns (flush : ℕ)
  | start
  | stop
  | joined
  | closeEnds
  | loopHead
  | tick
  | dispatch
  | send
  | sendRaises
  | call
  | pump (track : String)

/-- The next state. -/
def RoomMedia.step (s : RoomMedia) : Label → Option RoomMedia
  | .producer l => (s.pacer.step l).map fun pacer => { s with pacer }
  | .flush hold => some (s.flush hold)
  | .flushReturns flush => if flush ∈ s.flushing then some (s.flushReturns flush) else none
  | .start => some s.start
  | .stop => some s.stop
  | .joined => s.joined
  | .closeEnds => s.closeEnds
  | .loopHead => s.loopHead
  | .tick => s.tick
  | .dispatch => s.dispatch
  | .send => s.send
  | .sendRaises => s.sendRaises
  | .call => s.call
  | .pump track => s.pump track

/-- A new connection to a room, with the tracks that have a source. -/
def roomMedia (video audio : List String) : TransitionSystem RoomMedia RoomMedia.Label where
  init := { video, audio }
  step := RoomMedia.step

end ReactorRuntime.LiveKit
