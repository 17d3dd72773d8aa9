import Mathlib.Data.Nat.Notation

/-!
# The media of a connection, from the pacer to the wire

A connection takes a chunk through its pacer: `submit` puts the chunk's frames on the queue one at a
time, and a thread of the pacer takes one each tick.  A WebRTC connection (`MediaPacer`) hands it to
the peer, whose own threads take it on to the wire; the room's connection (`RoomPacer`) hands the
picture to the room, and the sound to a task on the event loop.

A step is what one thread does under a lock, or between two reads of what the threads share.  `born`
and `cut` are history, and count the flushes that the model has begun: when the emit of a chunk
began, and at the last flush that has reached the pacer or the wire.

Left out: rates and times, the data of frames, paused tracks, and sinks that raise.
-/

namespace ReactorRuntime.Transport

/-! ### Frames -/

/-- An emitted chunk: which emit it is of, and which tracks it has data and metadata for. -/
structure MediaChunk where
  emit : ℕ
  born : ℕ
  nFrames : ℕ
  wait : Bool
  video : Bool
  audio : Bool
  metadata : Bool
  deriving DecidableEq

structure MediaFrame where
  chunk : MediaChunk
  index : ℕ
  deriving DecidableEq

/-- What a pacer hands on, from a frame or, with no frame, black. -/
structure MediaBundle where
  frame : Option MediaFrame
  video : Bool
  audio : Bool
  deriving DecidableEq

def MediaFrame.bundle (f : MediaFrame) : MediaBundle :=
  { frame := some f, video := f.chunk.video, audio := f.chunk.audio }

def MediaFrame.videoOnly (f : MediaFrame) : MediaBundle :=
  { frame := some f, video := f.chunk.video, audio := false }

def blackBundle : MediaBundle := { frame := none, video := true, audio := false }

/-! ### The queue of a pacer -/

/-- What the two pacers have in common.  `closed` says that `stop` was called, and `joined` that the
pacing thread has ended since. -/
structure PacerQueue where
  depth : ℕ := 10
  queue : List MediaFrame := []
  epoch : ℕ := 0
  closed : Bool := false
  joined : Bool := false
  cut : ℕ := 0
  deriving DecidableEq

/-- What becomes of one frame in `submit`. -/
inductive Put where
  | queued (q : PacerQueue)
  /-- The queue is full, and the chunk is to wait. -/
  | waits
  /-- The queue is full, and the rest of the chunk is dropped. -/
  | dropped
  /-- The pacer was stopped or flushed, and the rest of the chunk is abandoned. -/
  | aborted
  deriving DecidableEq

namespace PacerQueue

variable (q : PacerQueue)

/-- One round of the loop of `submit`, which has read the epoch before the first. -/
def put (epoch : ℕ) (f : MediaFrame) : Put :=
  if q.closed = true ∨ q.epoch ≠ epoch then .aborted
  else if q.queue.length < max q.depth f.chunk.nFrames then
    .queued { q with queue := q.queue ++ [f] }
  else if f.chunk.wait then .waits else .dropped

def setDepth (depth : ℕ) : PacerQueue := if depth = 0 then q else { q with depth }

/-- The part of `flush` that both pacers have. -/
def flush (generation : ℕ) : PacerQueue :=
  { q with epoch := q.epoch + 1, queue := [], cut := generation }

/-- The first part of `stop`. -/
def stop : PacerQueue := { q with closed := true }

/-- The last part of `stop`, once the thread has ended. -/
def join : PacerQueue := { q with joined := true, queue := [] }

end PacerQueue

/-! ### The pacer of a WebRTC connection -/

structure MediaPacer extends PacerQueue where
  boundaryBlackPending : Bool := true
  lastFrame : Option MediaFrame := none
  deriving DecidableEq

namespace MediaPacer

variable (p : MediaPacer)

def flush (hold : Bool) (generation : ℕ) : MediaPacer :=
  { toPacerQueue := p.toPacerQueue.flush generation
    boundaryBlackPending := !hold
    lastFrame := none }

/-- `_emit_one_tick_locked`: what is dispatched, and the pacer after. -/
def emitOneTick : Option MediaBundle × MediaPacer :=
  match p.queue with
  | f :: queue =>
    (some f.bundle, { p with queue, boundaryBlackPending := false, lastFrame := some f })
  | [] =>
    if p.boundaryBlackPending then (some blackBundle, { p with boundaryBlackPending := false })
    else (p.lastFrame.bind fun f =>
      if f.chunk.video && f.chunk.metadata then some f.videoOnly else none, p)

/-- The last part of `stop`. -/
def join : MediaPacer := { p with toPacerQueue := p.toPacerQueue.join, lastFrame := none }

end MediaPacer

/-! ### The peer -/

def FRAME_QUEUE_MAX : ℕ := 10

/-- The media that a peer holds for its wire: the frames that wait for the drain thread, each with
the flushes counted when it was queued, the one that the thread is pushing, and the audio that waits
for the feeder.  `gone` says that the peer is stopped. -/
structure PeerMedia where
  frameQueue : List (MediaBundle × ℕ) := []
  flushes : ℕ := 0
  pushing : Option (MediaBundle × ℕ) := none
  audioBufs : List MediaFrame := []
  gone : Bool := false
  cut : ℕ := 0
  deriving DecidableEq

namespace PeerMedia

variable (p : PeerMedia)

def sendMedia (bundle : MediaBundle) : PeerMedia :=
  if p.gone = true ∨ FRAME_QUEUE_MAX ≤ p.frameQueue.length then p
  else { p with frameQueue := p.frameQueue ++ [(bundle, p.flushes)] }

def flushMedia (generation : ℕ) : PeerMedia :=
  { p with flushes := p.flushes + 1, frameQueue := [], audioBufs := [], cut := generation }

/-- The drain thread takes a frame, and drops it when a flush has landed since it was queued. -/
def drain : Option PeerMedia :=
  match p.gone, p.pushing, p.frameQueue with
  | false, none, (bundle, flushes) :: frameQueue =>
    some { p with
      frameQueue
      pushing := if flushes = p.flushes then some (bundle, flushes) else none }
  | _, _, _ => none

/-- `_push_bundle` comes to the picture: what is pushed. -/
def pushVideo : Option (Option MediaFrame × PeerMedia) :=
  match p.pushing with
  | some (bundle, flushes) =>
    if bundle.video then
      if flushes = p.flushes then
        some (bundle.frame, { p with pushing := some ({ bundle with video := false }, flushes) })
      else some (none, { p with pushing := none })
    else none
  | none => none

def enqueueAudio (trimmed : ℕ) : Option PeerMedia :=
  match p.pushing with
  | some (bundle, flushes) =>
    if bundle.audio then
      some { p with
        pushing := some ({ bundle with audio := false }, flushes)
        audioBufs :=
          if flushes = p.flushes ∧ p.gone = false then
            (p.audioBufs ++ bundle.frame.toList).drop trimmed
          else p.audioBufs }
    else none
  | none => none

/-- `_push_bundle` is through with its frame. -/
def pushed : Option PeerMedia :=
  match p.pushing with
  | some (bundle, _) =>
    if bundle.video = true ∨ bundle.audio = true then none else some { p with pushing := none }
  | none => none

/-- `_push_audio_frame`: the frame whose sound is pushed; `last` says that no more of it is left. -/
def pushAudioFrame (last : Bool) : Option (MediaFrame × PeerMedia) :=
  match p.gone, p.audioBufs with
  | false, f :: audioBufs => some (f, if last then { p with audioBufs } else p)
  | _, _ => none

/-- The peer is stopped, and drops what it holds. -/
def close : PeerMedia := { p with gone := true, frameQueue := [], audioBufs := [] }

end PeerMedia

/-! ### The room -/

/-- `RoomPacer`.  `inHand` is what a tick has taken, and is to dispatch; `frameDims` says that the
shape of a picture is known. -/
structure RoomPacer extends PacerQueue where
  blackPending : Bool := false
  frameDims : Bool := false
  inHand : Option MediaBundle := none
  deriving DecidableEq

namespace RoomPacer

variable (p : RoomPacer)

def flush (hold : Bool) (generation : ℕ) : RoomPacer :=
  { p with toPacerQueue := p.toPacerQueue.flush generation, blackPending := !hold }

/-- The part of `_emit_one_tick` under the lock. -/
def take : RoomPacer :=
  match p.queue with
  | f :: queue => { p with
      queue
      blackPending := false
      frameDims := p.frameDims || f.chunk.video
      inHand := some f.bundle }
  | [] =>
    if p.blackPending then { p with
      blackPending := false
      inHand := if p.frameDims then some blackBundle else none }
    else p

/-- The last part of `stop`. -/
def join : RoomPacer := { p with toPacerQueue := p.toPacerQueue.join }

end RoomPacer

def AUDIO_PUMP_MAX : ℕ := 64

/-- The sound on its way to the room: the callbacks that wait for the event loop, `_queue_audio` of
a frame or, with no frame, `_clear_audio`, and what waits for the pump. -/
structure RoomAudio where
  calls : List (Option MediaFrame) := []
  pending : List MediaFrame := []
  gone : Bool := false
  cut : ℕ := 0
  deriving DecidableEq

/-- What waits for the pump after a callback. -/
def queueAudio (pending : List MediaFrame) : Option MediaFrame → List MediaFrame
  | some f => (if AUDIO_PUMP_MAX ≤ pending.length then pending.tail else pending) ++ [f]
  | none => []

namespace RoomAudio

variable (a : RoomAudio)

/-- The event loop makes the next callback. -/
def call : Option RoomAudio :=
  match a.calls with
  | c :: calls => some { a with calls, pending := queueAudio a.pending c }
  | [] => none

def pump : Option (MediaFrame × RoomAudio) :=
  match a.gone, a.pending with
  | false, f :: pending => some (f, { a with pending })
  | _, _ => none

/-- The last part of `close`. -/
def close : RoomAudio := { a with gone := true, pending := [] }

end RoomAudio

/-! ### Connections -/

inductive MediaConnection where
  /-- Its wire carries no media. -/
  | data
  | webrtc (pacer : MediaPacer) (peer : PeerMedia)
  | room (pacer : RoomPacer) (audio : RoomAudio)
  deriving DecidableEq

inductive MediaAction where
  | setDepth (depth : ℕ)
  /-- The pacing thread makes a tick; in the room, the part of it under the lock. -/
  | tick
  /-- The pacing thread hands its frame to the room. -/
  | dispatch
  | drain
  | pushVideo
  | enqueueAudio (trimmed : ℕ)
  | pushed
  | pushAudioFrame (last : Bool)
  | call
  | stop
  | join
  | close
  deriving DecidableEq

namespace MediaConnection

def carriesMedia : MediaConnection → Bool
  | .data => false
  | _ => true

def pacerQueue : MediaConnection → PacerQueue
  | .data => {}
  | .webrtc pacer _ => pacer.toPacerQueue
  | .room pacer _ => pacer.toPacerQueue

def setQueue (queue : PacerQueue) : MediaConnection → MediaConnection
  | .data => .data
  | .webrtc pacer peer => .webrtc { pacer with toPacerQueue := queue } peer
  | .room pacer audio => .room { pacer with toPacerQueue := queue } audio

/-- The first part of `flush_media`: the pacer's flush. -/
def flushPacer (hold : Bool) (generation : ℕ) : MediaConnection → MediaConnection
  | .data => .data
  | .webrtc pacer peer => .webrtc (pacer.flush hold generation) peer
  | .room pacer audio => .room (pacer.flush hold generation) audio

/-- The second part of `flush_media`. -/
def flushWire (generation : ℕ) : MediaConnection → MediaConnection
  | .data => .data
  | .webrtc pacer peer => .webrtc pacer (peer.flushMedia generation)
  | .room pacer audio =>
    .room pacer { audio with calls := audio.calls ++ [none], cut := generation }

/-- A step of the connection's own threads: the frame that the wire is handed, if any, and the
connection after.  `locked` says that a flush keeps the pacing thread between two ticks. -/
def act (locked : Bool) : MediaConnection → MediaAction →
    Option (Option MediaFrame × MediaConnection)
  | .webrtc pacer peer, .setDepth depth =>
    some (none, .webrtc { pacer with toPacerQueue := pacer.setDepth depth } peer)
  | .webrtc pacer peer, .tick =>
    if locked = true ∨ pacer.joined = true then none
    else
      let (bundle, pacer) := pacer.emitOneTick
      some (none, .webrtc pacer (bundle.elim peer peer.sendMedia))
  | .webrtc pacer peer, .drain => peer.drain.map fun peer => (none, .webrtc pacer peer)
  | .webrtc pacer peer, .pushVideo =>
    peer.pushVideo.map fun (frame, peer) => (frame, .webrtc pacer peer)
  | .webrtc pacer peer, .enqueueAudio trimmed =>
    (peer.enqueueAudio trimmed).map fun peer => (none, .webrtc pacer peer)
  | .webrtc pacer peer, .pushed => peer.pushed.map fun peer => (none, .webrtc pacer peer)
  | .webrtc pacer peer, .pushAudioFrame last =>
    (peer.pushAudioFrame last).map fun (frame, peer) => (some frame, .webrtc pacer peer)
  | .webrtc pacer peer, .stop =>
    some (none, .webrtc { pacer with toPacerQueue := pacer.stop } peer)
  | .webrtc pacer peer, .join => if pacer.closed then some (none, .webrtc pacer.join peer) else none
  | .webrtc pacer peer, .close => some (none, .webrtc pacer peer.close)
  | .room pacer audio, .setDepth depth =>
    some (none, .room { pacer with toPacerQueue := pacer.setDepth depth } audio)
  | .room pacer audio, .tick =>
    if pacer.joined = true ∨ pacer.inHand.isSome then none else some (none, .room pacer.take audio)
  | .room pacer audio, .dispatch => pacer.inHand.map fun bundle =>
    (if bundle.video then bundle.frame else none, .room { pacer with inHand := none } { audio with
      calls := audio.calls ++ if bundle.audio then bundle.frame.toList.map some else [] })
  | .room pacer audio, .call => audio.call.map fun audio => (none, .room pacer audio)
  | .room pacer audio, .pushAudioFrame _ =>
    audio.pump.map fun (frame, audio) => (some frame, .room pacer audio)
  | .room pacer audio, .stop => some (none, .room { pacer with toPacerQueue := pacer.stop } audio)
  | .room pacer audio, .join =>
    if pacer.closed = true ∧ pacer.inHand = none then some (none, .room pacer.join audio) else none
  | .room pacer audio, .close => some (none, .room pacer audio.close)
  | _, _ => none

attribute [local simp] act

end MediaConnection

end ReactorRuntime.Transport
