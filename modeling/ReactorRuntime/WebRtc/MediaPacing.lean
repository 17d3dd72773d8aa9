import ReactorRuntime.Core.MediaBundle
import ReactorRuntime.Transport.FrameQueue
import ReactorRuntime.TransitionSystem.Basic

/-!
# The pacer of a WebRTC connection, step by step

`MediaPacer`.  A tick takes its frame from the queue under the lock of `between_ticks`, but not
under the lock `_room`, and reads and sets what a flush sets one after the other; a flush holds
`_room`, and may hold the lock of `between_ticks` or not.  So a step is one access to what the
threads share, except that a producer's steps are those of `FrameQueue`.

`log` is the history of what the sink was handed, of the ticks that handed it nothing, and of the
flushes; `sunk` has each frame that it was handed, also as a repeat, with the newest flush by then
that was made between two ticks.  A flush has the number that the epoch gets with it.

The event loop calls `start` and `stop`, so that neither runs during the other.

Left out: times, the data of frames, what is logged, and what the sink does.
-/

namespace ReactorRuntime.WebRtc

open ReactorRuntime.Core (TrackKind)
open ReactorRuntime.Transport (FrameQueue PacedFrame)

/-- A track of a frame, and whether it carries metadata. -/
structure PacedTrack where
  name : String
  kind : TrackKind
  metadata : Bool := false
  deriving DecidableEq

abbrev PeerFrame := PacedFrame (List PacedTrack)

def videoOnly (frame : PeerFrame) : List PacedTrack := frame.content.filter fun t => t.kind = .video

/-- The pacing thread: where it is in `_pacing_loop` and `_emit_one_tick_locked`. -/
inductive PacerThread where
  | none
  | resting
  /-- It goes on to its next tick. -/
  | due
  /-- The queue gave it a frame, and `_room` is to be notified. -/
  | got (frame : PeerFrame)
  /-- `_boundary_black_pending = False` is next. -/
  | notified (frame : PeerFrame)
  /-- `_last_frame = item` is next. -/
  | marked (frame : PeerFrame)
  /-- The frame is dispatched next. -/
  | kept (frame : PeerFrame)
  /-- The queue was empty. -/
  | empty
  /-- `_boundary_black_pending` was set. -/
  | blackSeen
  /-- The black frame is dispatched next. -/
  | blackMarked
  /-- `_boundary_black_pending` was not set. -/
  | noBlack
  /-- `_last_frame` was set. -/
  | lastSeen
  /-- The tracks of `_video_only` are dispatched next. -/
  | repeats (frame : PeerFrame)
  | ended

/-- Whether the thread holds the lock of `between_ticks`. -/
def PacerThread.inTick : PacerThread → Bool
  | .none | .resting | .due | .ended => false
  | .got _ | .notified _ | .marked _ | .kept _ | .empty | .blackSeen | .blackMarked | .noBlack
  | .lastSeen | .repeats _ => true

/-- What the sink is handed, and what happens between. -/
inductive PacerEvent where
  | frame (frame : PeerFrame)
  | black
  /-- A gap-fill. -/
  | repeats (frame : PeerFrame) (tracks : List PacedTrack)
  /-- A tick that found the queue empty, and handed nothing over. -/
  | silent
  | flushed (hold : Bool)
  deriving DecidableEq

structure MediaPacing where
  frames : FrameQueue (List PacedTrack) := {}
  boundaryBlackPending : Bool := true
  lastFrame : Option PeerFrame := none
  thread : PacerThread := .none
  /-- Whether `stop` was called. -/
  stopping : Bool := false
  /-- Whether someone who flushes holds the lock of `between_ticks`. -/
  cutting : Bool := false
  /-- The flush that holds `_room`: whether it holds the last frame, and whether it was made between
  two ticks. -/
  flushing : Option (Bool × Bool) := none
  /-- History: the newest flush that was made between two ticks. -/
  cut : ℕ := 0
  log : List PacerEvent := []
  sunk : List (PeerFrame × ℕ) := []

namespace MediaPacing

variable (s : MediaPacing)

/-! ### Flushes -/

/-- A flush takes `_room`, and ends the epoch. -/
def flushBegins (hold between : Bool) : Option MediaPacing :=
  if s.flushing.isSome || between && !s.cutting then none
  else some { s with
    frames := { s.frames with epoch := s.frames.epoch + 1 }
    flushing := some (hold, between) }

def flushDrains : Option MediaPacing :=
  match s.flushing, s.frames.take with
  | some _, some (_, frames) => some { s with frames }
  | _, _ => none

def flushEnds : Option MediaPacing :=
  match s.flushing, s.frames.queue with
  | some (hold, between), [] => some { s with
      boundaryBlackPending := !hold
      lastFrame := none
      flushing := none
      cut := if between then s.frames.epoch else s.cut
      log := s.log ++ [.flushed hold] }
  | _, _ => none

/-- The lock of `between_ticks` is taken by who flushes. -/
def cutBegins : Option MediaPacing :=
  if s.cutting || s.thread.inTick then none else some { s with cutting := true }

/-- The lock is released. -/
def cutEnds : Option MediaPacing :=
  if s.cutting && s.flushing.all fun flush => !flush.2 then some { s with cutting := false }
  else none

/-! ### Start and stop -/

def start : Option MediaPacing :=
  if s.stopping then none
  else if !s.frames.stopped || s.frames.closed then some s
  else some { s with frames := { s.frames with stopped := false }, thread := .resting }

/-- The first part of `stop`. -/
def stop : MediaPacing := { s with stopping := true, frames := { s.frames with stopped := true } }

def closes : Option MediaPacing :=
  if s.stopping && s.flushing.isNone then some { s with frames := { s.frames with closed := true } }
  else none

/-- The last part of `stop`, once the thread has ended. -/
def joined : Option MediaPacing :=
  match s.thread with
  | .none | .ended =>
    if s.frames.closed && s.flushing.isNone then
      some { s with frames := s.frames.clear, lastFrame := none }
    else none
  | _ => none

/-! ### Ticks -/

/-- The sink is handed what a tick has made of a frame. -/
def handOver (event : PacerEvent) (frame : Option PeerFrame) : MediaPacing :=
  { s with
    thread := .resting
    log := s.log ++ [event]
    sunk := s.sunk ++ frame.toList.map fun f => (f, s.cut) }

def tick : Option MediaPacing :=
  match s.thread with
  | .none | .ended => none
  | .resting => some { s with thread := if s.frames.stopped then .ended else .due }
  | .due =>
    if s.cutting then none
    else
      match s.frames.take with
      | some (frame, frames) => some { s with frames, thread := .got frame }
      | none => some { s with thread := .empty }
  | .got frame => if s.flushing.isSome then none else some { s with thread := .notified frame }
  | .notified frame => some { s with boundaryBlackPending := false, thread := .marked frame }
  | .marked frame => some { s with lastFrame := some frame, thread := .kept frame }
  | .kept frame => some (s.handOver (.frame frame) (some frame))
  | .empty => some { s with thread := if s.boundaryBlackPending then .blackSeen else .noBlack }
  | .blackSeen => some { s with boundaryBlackPending := false, thread := .blackMarked }
  | .blackMarked => some (s.handOver .black none)
  | .noBlack =>
    if s.lastFrame.isSome then some { s with thread := .lastSeen }
    else some (s.handOver .silent none)
  | .lastSeen =>
    match s.lastFrame with
    -- `_video_only(None)` raises, and `_pacing_loop` stops the pacer.
    | none => some { s with frames := { s.frames with stopped := true }, thread := .ended }
    | some frame =>
      if (videoOnly frame).any PacedTrack.metadata then some { s with thread := .repeats frame }
      else some (s.handOver .silent none)
  | .repeats frame => some (s.handOver (.repeats frame (videoOnly frame)) (some frame))

/-! ### Runs -/

/-- What happens next. -/
inductive Label where
  | producer (l : FrameQueue.Label (List PacedTrack))
  | flushBegins (hold between : Bool)
  | flushDrains
  | flushEnds
  | cutBegins
  | cutEnds
  | start
  | stop
  | closes
  | joined
  | tick

/-- Whether a step of the producer, or a new depth, has to wait for `_room`. -/
def waits : FrameQueue.Label (List PacedTrack) → Bool
  | .put | .setDepth _ => s.flushing.isSome
  | .submit _ _ | .readEpoch | .nextFrame => false

/-- The next state. -/
def step : Label → Option MediaPacing
  | .producer l =>
    if s.waits l then none else (s.frames.step l).map fun frames => { s with frames }
  | .flushBegins hold between => s.flushBegins hold between
  | .flushDrains => s.flushDrains
  | .flushEnds => s.flushEnds
  | .cutBegins => s.cutBegins
  | .cutEnds => s.cutEnds
  | .start => s.start
  | .stop => some s.stop
  | .closes => s.closes
  | .joined => s.joined
  | .tick => s.tick

end MediaPacing

/-- A new pacer. -/
def mediaPacing (depth : ℕ) : TransitionSystem MediaPacing MediaPacing.Label where
  init := { frames := { depth } }
  step := MediaPacing.step

end ReactorRuntime.WebRtc
