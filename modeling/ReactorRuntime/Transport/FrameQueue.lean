import Mathlib.Algebra.BigOperators.Group.List.Basic

/-!
# The queue of a pacer, frame by frame

What `MediaPacer` and `RoomPacer` have in common: `submit`, which one thread calls, `set_depth`, and
the queue.  A step is what the producer does between two reads of what the threads share, or under
the lock `_room`: `submit` reads the epoch once, and for each frame the depth, before it takes the
lock.  The two classes make the checks under the lock in another order, to the same effect.

A chunk is the list of its frames, so that `n_frames` is the length of it; `β` is the type of what
a frame carries.  A frame has the number of its chunk, its place in it, and how many flushes had
landed when `submit` was called (`born`).

Left out: rates and times, which change only when things happen, and what is logged.
-/

namespace ReactorRuntime.Transport

structure PacedFrame (β : Type) where
  chunk : ℕ
  index : ℕ
  born : ℕ
  content : β
  deriving DecidableEq

/-- A call of `submit`: `epoch`, once it was read; `capacity`, once it was read for the frame that
is next; and how many frames were put on the queue. -/
structure Submission (β : Type) where
  chunk : ℕ
  wait : Bool
  frames : List (PacedFrame β)
  born : ℕ
  epoch : Option ℕ := none
  capacity : Option ℕ := none
  enqueued : ℕ := 0

/-- A call of `submit` that has returned; `aborted` says that it gave up the rest of its chunk, and
`epoch` and `closed` are those of the pacer by then. -/
structure SubmitResult (β : Type) where
  call : Submission β
  aborted : Bool
  epoch : ℕ
  closed : Bool

def SubmitResult.dropped {β : Type} (r : SubmitResult β) : ℕ :=
  if r.call.wait || r.aborted then 0 else r.call.frames.length - r.call.enqueued

/-- The state that the two pacers share. -/
structure FrameQueue (β : Type) where
  depth : ℕ := 10
  queue : List (PacedFrame β) := []
  epoch : ℕ := 0
  /-- `_stop`. -/
  stopped : Bool := true
  closed : Bool := false
  droppedFrames : ℕ := 0
  /-- The call of `submit`, while there is one. -/
  producer : Option (Submission β) := none
  /-- History: how many calls of `submit` there were. -/
  calls : ℕ := 0
  /-- History: the frames of the chunks that were submitted. -/
  submitted : List (PacedFrame β) := []
  /-- History: the frames that were put on the queue. -/
  entered : List (PacedFrame β) := []
  /-- History: how many frames there were right after each put, and how many there may be. -/
  levels : List (ℕ × ℕ) := []
  /-- History: the calls of `submit` that have returned. -/
  returned : List (SubmitResult β) := []

namespace FrameQueue

variable {β : Type} (q : FrameQueue β)

def framesOf (contents : List β) : List (PacedFrame β) :=
  contents.mapIdx fun index content => { chunk := q.calls, index, born := q.epoch, content }

def submit (contents : List β) (wait : Bool) : Option (FrameQueue β) :=
  match q.producer with
  | some _ => none
  | none =>
    some { q with
      producer := some
        { chunk := q.calls, wait, frames := q.framesOf contents, born := q.epoch }
      calls := q.calls + 1
      submitted := q.submitted ++ q.framesOf contents }

def readEpoch : Option (FrameQueue β) :=
  match q.producer with
  | some p =>
    match p.epoch with
    | none => some { q with producer := some { p with epoch := some q.epoch } }
    | some _ => none
  | none => none

def finish (p : Submission β) (aborted : Bool) : FrameQueue β :=
  let result : SubmitResult β := { call := p, aborted, epoch := q.epoch, closed := q.closed }
  { q with
    producer := none
    droppedFrames := q.droppedFrames + result.dropped
    returned := q.returned ++ [result] }

/-- The loop of `submit` comes to its next frame, and reads the depth, or it is through. -/
def nextFrame : Option (FrameQueue β) :=
  match q.producer with
  | some p =>
    match p.epoch, p.capacity with
    | some _, none =>
      if p.enqueued < p.frames.length then
        some { q with
          producer := some { p with capacity := some (max q.depth p.frames.length) } }
      else some (q.finish p false)
    | _, _ => none
  | none => none

/-- The loop of `submit` has the lock: it gives up, puts its frame on the queue, goes on to wait or
drops the rest of its chunk. -/
def put : Option (FrameQueue β) :=
  match q.producer with
  | some p =>
    match p.epoch, p.capacity, p.frames[p.enqueued]? with
    | some epoch, some capacity, some f =>
      if q.closed || q.epoch ≠ epoch || p.wait && q.stopped then some (q.finish p true)
      else if q.queue.length < capacity then
        some { q with
          queue := q.queue ++ [f]
          producer := some { p with capacity := none, enqueued := p.enqueued + 1 }
          entered := q.entered ++ [f]
          levels := q.levels ++ [(q.queue.length + 1, max q.depth p.frames.length)] }
      else if p.wait then none
      else some (q.finish p false)
    | _, _, _ => none
  | none => none

def setDepth (depth : ℕ) : FrameQueue β := if depth = 0 then q else { q with depth }

def flush : FrameQueue β := { q with epoch := q.epoch + 1, queue := [] }

def take : Option (PacedFrame β × FrameQueue β) :=
  match q.queue with
  | f :: queue => some (f, { q with queue })
  | [] => none

/-- The queue is emptied at the end of `stop`. -/
def clear : FrameQueue β := { q with queue := [] }

/-- What the producer does next, or who sets the depth. -/
inductive Label (β : Type) where
  | submit (contents : List β) (wait : Bool)
  | readEpoch
  | nextFrame
  | put
  | setDepth (depth : ℕ)

/-- The next state. -/
def step : Label β → Option (FrameQueue β)
  | .submit contents wait => q.submit contents wait
  | .readEpoch => q.readEpoch
  | .nextFrame => q.nextFrame
  | .put => q.put
  | .setDepth depth => some (q.setDepth depth)

end FrameQueue

end ReactorRuntime.Transport
