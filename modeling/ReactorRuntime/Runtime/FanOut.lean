import ReactorRuntime.Transport.MediaPacer
import ReactorRuntime.TransitionSystem.Basic

/-!
# The fan-out of emitted media, and the flush

`OutputStream.emit` runs `_emit_media` on a worker thread, which hands the chunk to each connection
and then to the recorder; `OutputStream.flush` runs `_flush_media` on the model's thread, and cuts
each connection.  The threads of the connections go on meanwhile, and the event loop opens and
closes connections.

A label is what one thread does between two reads of what the threads share.  A connection is known
by its place among those that were opened, which `byId` has under the ids of the present ones.

Left out: sessions, which are streamed, and the accounts of what was emitted.
-/

namespace ReactorRuntime.Runtime

open ReactorRuntime.Transport

/-- Where an emit is; a connection is given by its place, `rest` are those still to come. -/
inductive EmitStage where
  /-- The model has called `emit`. -/
  | begun
  /-- `_emit_media` has read the media generation. -/
  | read (generation : ℕ)
  /-- The loop of `broadcast_media` is before its next connection. -/
  | fanning (generation : ℕ) (rest : List ℕ)
  /-- The loop goes on, and `send_media` is next; `epoch` is history, that of the pacer as the worker
  looked at the generation. -/
  | offering (generation conn epoch : ℕ) (rest : List ℕ)
  /-- `submit` has read the epoch, and is before its next frame. -/
  | putting (generation conn epoch index : ℕ) (rest : List ℕ)
  /-- The recorder is next. -/
  | recording
  | done
  deriving DecidableEq

/-- An emit.  The history: the connections that were registered as the fan-out began, those that
were offered the chunk, and whether a flush made the worker abandon it. -/
structure Emit where
  chunk : MediaChunk
  stage : EmitStage := .begun
  snapshot : List ℕ := []
  offered : List ℕ := []
  abandoned : Bool := false
  deriving DecidableEq

def Emit.frame (emit : Emit) (index : ℕ) : MediaFrame := { chunk := emit.chunk, index }

inductive FlushStage where
  /-- The generation has moved on. -/
  | begun (hold : Bool)
  /-- The loop over the connections is before its next. -/
  | walking (hold : Bool) (rest : List ℕ)
  /-- The pacer of a connection is flushed, and the rest of its `flush_media` is next. -/
  | cutting (hold : Bool) (conn : ℕ) (rest : List ℕ)
  deriving DecidableEq

/-- The wire of a connection was handed a frame, with the flushes that had returned by then. -/
structure HandedFrame where
  conn : ℕ
  frame : MediaFrame
  returned : ℕ
  deriving DecidableEq

/-- The runner's media.  A flush is known by the generation it makes, and `returned` is that of the
last one that has returned. -/
structure FanOut where
  conns : ℕ → MediaConnection := fun _ => .data
  opened : ℕ := 0
  byId : List (String × ℕ) := []
  /-- `_media_generation`. -/
  generation : ℕ := 0
  flushing : Option FlushStage := none
  returned : ℕ := 0
  emits : ℕ → Option Emit := fun _ => none
  emitted : ℕ := 0
  recorded : List ℕ := []
  handed : List HandedFrame := []

namespace FanOut

variable (s : FanOut)

/-- A new connection, through which no chunk has gone yet. -/
inductive Kind where
  | data
  | webrtc (depth : ℕ)
  | room (depth : ℕ)
  deriving DecidableEq

def Kind.connection (generation : ℕ) : Kind → MediaConnection
  | .data => .data
  | .webrtc depth => .webrtc { depth, cut := generation } { cut := generation }
  | .room depth => .room { depth, cut := generation } { cut := generation }

def registered : List ℕ := s.byId.map Prod.snd

def setConn (conn : ℕ) (c : MediaConnection) : FanOut :=
  { s with conns := Function.update s.conns conn c }

def setEmit (e : ℕ) (emit : Emit) : FanOut :=
  { s with emits := Function.update s.emits e (some emit) }

def register (id : String) (kind : Kind) : FanOut :=
  { s.setConn s.opened (kind.connection s.generation) with
    opened := s.opened + 1
    byId :=
      if s.byId.any (·.1 = id) then
        s.byId.map fun entry => if entry.1 = id then (id, s.opened) else entry
      else s.byId ++ [(id, s.opened)] }

def drop (id : String) : FanOut := { s with byId := s.byId.filter (·.1 ≠ id) }

/-- The next round of the loop of `submit`. -/
def putNext (e : ℕ) (emit : Emit) (generation conn epoch index : ℕ) (rest : List ℕ) :
    Option FanOut :=
  let ended := { emit with stage := .fanning generation rest }
  if index < emit.chunk.nFrames then
    match (s.conns conn).pacerQueue.put epoch (emit.frame index) with
    | .queued q => some ((s.setConn conn ((s.conns conn).setQueue q)).setEmit e
        { emit with stage := .putting generation conn epoch (index + 1) rest })
    | .waits => none
    | .dropped => some (s.setEmit e ended)
    | .aborted => some (s.setEmit e { ended with
        abandoned := emit.abandoned || decide ((s.conns conn).pacerQueue.epoch ≠ epoch) })
  else some (s.setEmit e ended)

def work (e : ℕ) (emit : Emit) : Option FanOut :=
  match emit.stage with
  | .begun => some (s.setEmit e { emit with stage := .read s.generation })
  | .read generation =>
    some (s.setEmit e
      { emit with stage := .fanning generation s.registered, snapshot := s.registered })
  | .fanning generation (conn :: rest) =>
    if s.generation ≠ generation then
      some (s.setEmit e { emit with stage := .recording, abandoned := true })
    else if (s.conns conn).carriesMedia then
      some (s.setEmit e { emit with
        stage := .offering generation conn (s.conns conn).pacerQueue.epoch rest })
    else some (s.setEmit e { emit with stage := .fanning generation rest })
  | .fanning _ [] => some (s.setEmit e { emit with stage := .recording })
  | .offering generation conn _ rest =>
    some (s.setEmit e { emit with
      stage := .putting generation conn (s.conns conn).pacerQueue.epoch 0 rest
      offered := emit.offered ++ [conn] })
  | .putting generation conn epoch index rest => s.putNext e emit generation conn epoch index rest
  | .recording =>
    some { s.setEmit e { emit with stage := .done } with recorded := s.recorded ++ [e] }
  | .done => none

def flushNext : Option FanOut :=
  match s.flushing with
  | some (.begun hold) => some { s with flushing := some (.walking hold s.registered) }
  | some (.walking hold (conn :: rest)) =>
    some { s.setConn conn ((s.conns conn).flushPacer hold s.generation) with
      flushing := some (.cutting hold conn rest) }
  | some (.walking _ []) => some { s with flushing := none, returned := s.generation }
  | some (.cutting hold conn rest) =>
    some { s.setConn conn ((s.conns conn).flushWire s.generation) with
      flushing := some (.walking hold rest) }
  | none => none

/-- Whether a flush keeps the pacing thread of a connection between two ticks. -/
def locked (conn : ℕ) : Bool :=
  match s.flushing with
  | some (.cutting _ c _) => decide (c = conn)
  | _ => false

/-- A step of a connection's own threads. -/
def act (conn : ℕ) (action : MediaAction) : Option FanOut :=
  ((s.conns conn).act (s.locked conn) action).map fun (frame, c) => { s.setConn conn c with
    handed := s.handed ++ frame.toList.map fun frame => { conn, frame, returned := s.returned } }

/-- What happens next. -/
inductive Label where
  | register (id : String) (kind : Kind)
  | drop (id : String)
  /-- `close_all` empties the registry. -/
  | closeAll
  | emit (nFrames : ℕ) (wait video audio metadata : Bool)
  | work (e : ℕ)
  | flush (hold : Bool)
  | flushes
  | act (conn : ℕ) (action : MediaAction)

def next : Label → Option FanOut
  | .register id kind => some (s.register id kind)
  | .drop id => some (s.drop id)
  | .closeAll => some { s with byId := [] }
  | .emit nFrames wait video audio metadata =>
    if s.flushing.isSome then none
    else some { s.setEmit s.emitted { chunk :=
        { emit := s.emitted, born := s.generation, nFrames, wait, video, audio, metadata } } with
      emitted := s.emitted + 1 }
  | .work e => (s.emits e).bind (s.work e)
  | .flush hold =>
    if s.flushing.isSome then none
    else some { s with flushing := some (.begun hold), generation := s.generation + 1 }
  | .flushes => s.flushNext
  | .act conn action => s.act conn action

end FanOut

/-- The runner's media, before a connection is opened. -/
def fanOut : TransitionSystem FanOut FanOut.Label where
  init := {}
  step := FanOut.next

end ReactorRuntime.Runtime
