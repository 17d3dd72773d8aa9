import Mathlib.Data.Finset.Basic
import ReactorRuntime.TransitionSystem.Basic

/-!
# The outbound audio of a peer

`WebRTCPeer` of `transport/webrtc/peer.py` as far as its audio goes: the bundles that wait for the
drain thread, the buffer that the drain thread fills for each track and the feeder empties, a frame
for each tick, the flush, and the pause set.

What is done under `_audio_lock` is one step.  Between its looks at the pause set and the lock, the
drain thread and the feeder may be overtaken by anything.  A bundle is sent with a flush count that
its sender read, which may be an earlier one.  Samples are those that `to_int16_mono` makes.

Left out: pictures but for the flush that ends a bundle, the times, a track that raises (it was
handed the frame all the same), and a peer that is stopped.
-/

namespace ReactorRuntime.WebRtc

def audioFrameSamples : ℕ := 480

def audioBufferMaxSamples : ℕ := 9600

def audioGraceTicks : ℕ := 300

def frameQueueMax : ℕ := 10

structure BundleTrack (S : Type*) where
  trackName : String
  /-- The name the model declared it under. -/
  infoName : String
  audio : Bool
  samples : List S

/-- A frame that is handed to a track. -/
inductive WireFrame (S : Type*) where
  /-- Samples of the model: the first is the `start`-th that was enqueued; `cut` had been when the
  last flush returned. -/
  | model (start cut : ℕ) (samples : List S)
  | silence

structure Resumed where
  /-- How many samples had been enqueued at the pause before it. -/
  before : ℕ
  /-- How many had left the buffer. -/
  removed : ℕ
  /-- How many frames had been handed to the track. -/
  frames : ℕ

structure TrackAudio (S : Type*) where
  /-- `_audio_bufs`. -/
  buf : List S := []
  /-- `_idle_ticks`. -/
  idleTicks : Option ℕ := none
  /-- `_silence_frames`. -/
  silenceFrames : ℕ := 0
  /-- The frames that were handed to the track. -/
  wire : List (WireFrame S) := []
  /-- History: the samples of the bundles that were sent. -/
  sent : List S := []
  /-- History: the samples that were enqueued. -/
  enqueued : List S := []
  /-- History: how many samples were trimmed, and how many flushed. -/
  trimmed : ℕ := 0
  flushed : ℕ := 0
  /-- History: how many samples have left the buffer. -/
  removed : ℕ := 0
  /-- History: how many samples had been enqueued at the last flush. -/
  cut : ℕ := 0
  /-- History: how many samples had been enqueued at the last pause. -/
  pausedAt : ℕ := 0
  resumes : List Resumed := []

namespace TrackAudio

variable {S : Type*} (t : TrackAudio S)

def enqueue (samples : List S) : TrackAudio S :=
  let overflow := (t.buf ++ samples).length - audioBufferMaxSamples
  { t with
    buf := (t.buf ++ samples).drop overflow
    enqueued := t.enqueued ++ samples
    trimmed := t.trimmed + overflow
    removed := t.removed + overflow }

def pushFrame (paused : Bool) : TrackAudio S :=
  if !paused && audioFrameSamples ≤ t.buf.length then
    { t with
      buf := t.buf.drop audioFrameSamples
      idleTicks := some 0
      wire := t.wire ++ [.model t.removed t.cut (t.buf.take audioFrameSamples)]
      removed := t.removed + audioFrameSamples }
  else match paused, t.idleTicks with
    | false, some ticks => { t with
        idleTicks := some (min (ticks + 1) audioGraceTicks)
        silenceFrames := t.silenceFrames + 1
        wire := t.wire ++ [.silence] }
    | _, _ => { t with wire := t.wire ++ [.silence] }

/-- The buffer of a track is cleared. -/
def flush : TrackAudio S :=
  { t with
    buf := []
    flushed := t.flushed + t.buf.length
    removed := t.removed + t.buf.length
    cut := t.enqueued.length }

def pause : TrackAudio S := { t with pausedAt := t.enqueued.length }

def resume : TrackAudio S :=
  { t with resumes := t.resumes ++ [⟨t.pausedAt, t.removed, t.wire.length⟩] }

end TrackAudio

/-- Where the drain thread is. -/
inductive Pushing (S : Type*) where
  | idle
  /-- It has taken a bundle off the queue. -/
  | taken (bundle : List (BundleTrack S)) (flushes : ℕ)
  | looping (rest : List (BundleTrack S)) (flushes : ℕ)
  /-- It is about to enqueue the samples of a track that was not paused. -/
  | enqueuing (name : String) (samples : List S) (rest : List (BundleTrack S)) (flushes : ℕ)

inductive Feeding where
  | idle
  | looping (rest : List String)
  /-- It has looked whether a track is paused. -/
  | pushing (name : String) (paused : Bool) (rest : List String)

structure OutTracks where
  names : List String
  audio : String → Bool
  nodup : names.Nodup

structure OutboundAudio (S : Type*) where
  tracks : String → TrackAudio S := fun _ => {}
  pausedTracks : Finset String := ∅
  frameQueue : List (List (BundleTrack S) × ℕ) := []
  flushes : ℕ := 0
  droppedSamples : ℕ := 0
  droppedBundles : ℕ := 0
  pushing : Pushing S := .idle
  feeding : Feeding := .idle
  /-- History: the ticks that are over. -/
  ticks : ℕ := 0

namespace OutboundAudio

variable {S : Type*} (out : OutTracks) (s : OutboundAudio S)

def attachedName (track : BundleTrack S) : Option String :=
  if track.infoName ∈ out.names then some track.infoName
  else if track.trackName ∈ out.names then some track.trackName
  else none

def samplesFor (name : String) (bundle : List (BundleTrack S)) : List S :=
  bundle.flatMap fun track =>
    if track.audio ∧ attachedName out track = some name then track.samples else []

def sendMedia (bundle : List (BundleTrack S)) (flushes : ℕ) : OutboundAudio S :=
  let tracks name :=
    { s.tracks name with sent := (s.tracks name).sent ++ samplesFor out name bundle }
  if frameQueueMax ≤ s.frameQueue.length then
    { s with tracks, droppedBundles := s.droppedBundles + 1 }
  else { s with tracks, frameQueue := s.frameQueue ++ [(bundle, flushes)] }

def flushMedia : OutboundAudio S :=
  { s with
    tracks := fun name => (s.tracks name).flush
    flushes := s.flushes + 1
    frameQueue := [] }

def pause (name : String) : OutboundAudio S :=
  { s with
    tracks := Function.update s.tracks name (s.tracks name).pause
    pausedTracks := insert name s.pausedTracks }

def resume (name : String) : OutboundAudio S :=
  { s with
    tracks := Function.update s.tracks name (s.tracks name).resume
    pausedTracks := s.pausedTracks.erase name }

def pushTrack (track : BundleTrack S) (rest : List (BundleTrack S)) (flushes : ℕ) : Pushing S :=
  if track.trackName ∈ s.pausedTracks ∨ track.infoName ∈ s.pausedTracks then .looping rest flushes
  else match attachedName out track with
    | none => .looping rest flushes
    | some name =>
      if track.audio then .enqueuing name track.samples rest flushes
      -- a flush has landed while the picture was converted
      else if flushes ≠ s.flushes then .idle
      else .looping rest flushes

def enqueueAudio (name : String) (samples : List S) (flushes : ℕ) : OutboundAudio S :=
  if samples.isEmpty || flushes ≠ s.flushes then s
  else { s with
    tracks := Function.update s.tracks name ((s.tracks name).enqueue samples)
    droppedSamples := s.droppedSamples +
      (((s.tracks name).buf ++ samples).length - audioBufferMaxSamples) }

/-- The next step of the drain thread. -/
def drain : Option (OutboundAudio S) :=
  match s.pushing with
  | .idle =>
    match s.frameQueue with
    | [] => none
    | (bundle, flushes) :: frameQueue =>
      some { s with frameQueue, pushing := .taken bundle flushes }
  | .taken bundle flushes =>
    some { s with pushing := if flushes = s.flushes then .looping bundle flushes else .idle }
  | .looping [] _ => some { s with pushing := .idle }
  | .looping (track :: rest) flushes =>
    some { s with pushing := s.pushTrack out track rest flushes }
  | .enqueuing name samples rest flushes =>
    some { s.enqueueAudio name samples flushes with pushing := .looping rest flushes }

/-- The next step of the feeder: `_push_audio_tick`, and `_push_audio_frame` for each name. -/
def feed : OutboundAudio S :=
  match s.feeding with
  | .idle => { s with feeding := .looping out.names }
  | .looping [] => { s with feeding := .idle, ticks := s.ticks + 1 }
  | .looping (name :: rest) => { s with
      feeding := if out.audio name then .pushing name (name ∈ s.pausedTracks) rest
        else .looping rest }
  | .pushing name paused rest => { s with
      tracks := Function.update s.tracks name ((s.tracks name).pushFrame paused)
      feeding := .looping rest }

end OutboundAudio

/-! ### Runs -/

inductive OutboundAudio.Label (S : Type*) where
  /-- A bundle is sent by a caller that read the flush count. -/
  | send (bundle : List (BundleTrack S)) (flushes : ℕ)
  | flush
  | pause (name : String)
  | resume (name : String)
  | drain
  | feed

def OutboundAudio.next {S : Type*} (out : OutTracks) (s : OutboundAudio S) :
    OutboundAudio.Label S → Option (OutboundAudio S)
  | .send bundle flushes =>
    if flushes ≤ s.flushes then some (s.sendMedia out bundle flushes) else none
  | .flush => some s.flushMedia
  | .pause name => some (s.pause name)
  | .resume name => some (s.resume name)
  | .drain => s.drain out
  | .feed => some (s.feed out)

def outboundAudio (S : Type*) (out : OutTracks) :
    TransitionSystem (OutboundAudio S) (OutboundAudio.Label S) where
  init := {}
  step := OutboundAudio.next out

/-- A track is resumed when its buffer holds less than a frame of what was enqueued before the
pause. -/
def OutboundAudio.reanchors {S : Type*} (s : OutboundAudio S) : OutboundAudio.Label S → Bool
  | .resume name => (s.tracks name).pausedAt - (s.tracks name).removed < audioFrameSamples
  | _ => true

end ReactorRuntime.WebRtc
