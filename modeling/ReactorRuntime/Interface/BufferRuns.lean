import ReactorRuntime.Interface.InputBuffer
import ReactorRuntime.TransitionSystem.Basic

/-!
# The operations on an input buffer

A buffer with what became of the frames that were pushed into it: they were returned by a read,
evicted by a push, skipped by a read of the newest ones, or dropped by `clear` and `reset`, or they
are still there.

Each operation takes the lock of the buffer, so that one follows the other.  A read that waits does
so without the lock, and what it does once there are enough frames is one operation.
-/

namespace ReactorRuntime.Interface

inductive BufferOp where
  | push (frame : InputFrame) (source : Option String) (session : ℕ)
  | read (n : ℕ) (mode : ReadMode)
  | tryRead (n : ℕ) (mode : ReadMode)
  | clear
  | reset (throughSession : Option ℕ)
  | close

/-- What a read passes over: the frames before the newest ones, if it takes those. -/
def InputBuffer.older (b : InputBuffer) (n : ℕ) : ReadMode → List BufferEntry
  | .fifo => []
  | .latest => b.buffer.take (b.buffer.length - n)

/-- What a reset drops: the frames of the sessions that ended. -/
def InputBuffer.ended (b : InputBuffer) : Option ℕ → List BufferEntry
  | none => b.buffer
  | some through => b.buffer.filter fun entry => !decide (through < entry.session)

/-- A buffer and the fate of its frames. -/
structure BufferRun where
  buffer : InputBuffer
  /-- History: what was buffered. -/
  pushed : List BufferEntry := []
  /-- History: what reads returned. -/
  returned : List InputFrame := []
  /-- History: what made room for another frame. -/
  evicted : List BufferEntry := []
  /-- History: what was older than the newest frames that a read took. -/
  skipped : List BufferEntry := []
  /-- History: what was cleared or reset. -/
  dropped : List BufferEntry := []

namespace BufferRun

variable (s : BufferRun)

def push (frame : InputFrame) (source : Option String) (session : ℕ) : BufferRun :=
  if s.buffer.closed then s
  else
    let pushed := s.buffer.buffer ++ [⟨session, frame, source⟩]
    let buffer := (s.buffer.push frame source session).1
    { s with
      buffer
      pushed := s.pushed ++ [⟨session, frame, source⟩]
      evicted := s.evicted ++ pushed.take (pushed.length - buffer.buffer.length) }

/-- What a read leaves and returns. -/
def reads (n : ℕ) (mode : ReadMode) (result : InputBuffer × ReadOutcome) : BufferRun :=
  match result.2 with
  | .frames frames => { s with
      buffer := result.1
      returned := s.returned ++ frames
      skipped := s.skipped ++ s.buffer.older n mode }
  | .tooFew | .closed | .overBound => { s with buffer := result.1 }

def next : BufferOp → BufferRun
  | .push frame source session => s.push frame source session
  | .read n mode => s.reads n mode (s.buffer.read n mode)
  | .tryRead n mode => s.reads n mode (s.buffer.tryRead n mode)
  | .clear => { s with buffer := s.buffer.clear, dropped := s.dropped ++ s.buffer.buffer }
  | .reset through => { s with
      buffer := s.buffer.reset through
      dropped := s.dropped ++ s.buffer.ended through }
  | .close => { s with buffer := s.buffer.close }

end BufferRun

def bufferRuns (bound : BufferBound) : TransitionSystem BufferRun BufferOp where
  init := { buffer := { bound with } }
  step s op := some (s.next op)

end ReactorRuntime.Interface
