import ReactorRuntime.Interface.InputBuffer
import ReactorRuntime.TransitionSystem.Basic

/-!
# The reads that wait on a track

`InputBuffer.read` waits on a thread of its own, on the condition of the buffer.  A push and a close
wake every thread that waits, and each takes the lock again at some later moment, looks at the
buffer, and ends or waits on; a timeout does the same to one thread.

What happens under the lock is one step.  A reader is known by its place.
-/

namespace ReactorRuntime.Interface

inductive ReadEnd where
  | frames (frames : List InputFrame)
  /-- `BufferClosed`. -/
  | closed
  /-- `TimeoutError`. -/
  | timedOut
  /-- The `ValueError` for more frames than the bound. -/
  | overBound
  deriving DecidableEq

inductive ReadPhase where
  /-- It waits to be woken. -/
  | waiting
  /-- Its wait is over, and it takes the lock next. -/
  | woken
  | ended (result : ReadEnd)
  deriving DecidableEq

structure TrackReader where
  n : ℕ
  mode : ReadMode
  /-- Whether it has a timeout. -/
  timed : Bool
  phase : ReadPhase
  /-- History: whether the track was closed while it waited, with too few frames for it. -/
  released : Bool := false
  deriving DecidableEq

structure TrackReads where
  buffer : InputBuffer
  readers : List TrackReader := []

namespace TrackReads

variable (s : TrackReads)

/-- `notify_all`. -/
def wake (reader : TrackReader) : TrackReader :=
  if reader.phase = .waiting then { reader with phase := .woken } else reader

def parked (reader : TrackReader) : Bool :=
  match reader.phase with
  | .waiting | .woken => true
  | .ended _ => false

def look (n : ℕ) (mode : ReadMode) : InputBuffer × Option ReadEnd :=
  if n ≤ s.buffer.buffer.length then
    ((s.buffer.takeFrames n mode).1, some (.frames (s.buffer.takeFrames n mode).2))
  else (s.buffer, if s.buffer.closed then some .closed else none)

/-- `_read`, up to the first wait. -/
def start (n : ℕ) (mode : ReadMode) (timed : Bool) : TrackReads :=
  if s.buffer.frameBound < n then { s with
    readers := s.readers ++ [{ n, mode, timed, phase := .ended .overBound }] }
  else { s with
    buffer := (s.look n mode).1
    readers := s.readers ++
      [{ n, mode, timed, phase := ((s.look n mode).2.map .ended).getD .waiting }] }

/-- A read that was woken has the lock: `late` where its time is up as well. -/
def acquire (i : ℕ) (reader : TrackReader) (late : Bool) : TrackReads :=
  let result := s.look reader.n reader.mode
  let phase : ReadPhase := match result.2 with
    | some result => .ended result
    | none => if reader.timed && late then .ended .timedOut else .waiting
  { s with buffer := result.1, readers := s.readers.set i { reader with phase } }

/-- `push`, which wakes the readers of an open track. -/
def push (frame : InputFrame) (source : Option String) (session : ℕ) : TrackReads :=
  if s.buffer.closed then s
  else { s with
    buffer := (s.buffer.push frame source session).1
    readers := s.readers.map wake }

def close : TrackReads := { s with
  buffer := s.buffer.close
  readers := s.readers.map fun reader => { wake reader with
    released := reader.released ||
      (parked reader && decide (s.buffer.buffer.length < reader.n)) } }

/-- What happens to a track. -/
inductive Label where
  | push (frame : InputFrame) (source : Option String) (session : ℕ)
  | tryRead (n : ℕ) (mode : ReadMode)
  | clear
  | close
  | reset (throughSession : Option ℕ)
  | start (n : ℕ) (mode : ReadMode) (timed : Bool)
  /-- The timeout of a read wakes it. -/
  | expire (i : ℕ)
  | acquire (i : ℕ) (late : Bool)

def next : Label → Option TrackReads
  | .push frame source session => some (s.push frame source session)
  | .tryRead n mode => some { s with buffer := (s.buffer.tryRead n mode).1 }
  | .clear => some { s with buffer := s.buffer.clear }
  | .close => some s.close
  | .reset through => some { s with buffer := s.buffer.reset through }
  | .start n mode timed => some (s.start n mode timed)
  | .expire i => s.readers[i]?.bind fun reader =>
      if reader.timed ∧ reader.phase = .waiting then
        some { s with readers := s.readers.set i { reader with phase := .woken } }
      else none
  | .acquire i late => s.readers[i]?.bind fun reader =>
      if reader.phase = .woken then some (s.acquire i reader late) else none

end TrackReads

def trackReads (bound : BufferBound) : TransitionSystem TrackReads TrackReads.Label where
  init := { buffer := { bound with } }
  step := TrackReads.next

end ReactorRuntime.Interface
