import Mathlib.Data.Int.Notation
import Mathlib.Data.Nat.Notation
import Mathlib.Tactic.SplitIfs

/-!
# The buffers of the input tracks

A buffer holds the frames of one track until the model reads them.  Each frame was pushed for a
session, by number, and a reset drops those of the sessions that ended.

Left out: how long each frame waited, and the threads that wait in a read.
-/

namespace ReactorRuntime.Interface

structure InputFrame where
  shape : List ℕ
  data : List UInt8
  deriving DecidableEq

def InputFrame.sampleCount (frame : InputFrame) : ℤ := frame.shape.getLastD 0

inductive ReadMode where
  | fifo
  | latest
  deriving DecidableEq

structure BufferEntry where
  session : ℕ
  frame : InputFrame
  source : Option String
  deriving DecidableEq

/-- The bound of a buffer: a number of frames, or of samples and then of frames too. -/
structure BufferBound where
  maxlen : ℕ := 128
  maxSamples : Option ℕ := none
  maxFrames : ℕ := if maxSamples.getD 0 = 0 then maxlen else maxSamples.getD 0
  deriving DecidableEq

structure InputBuffer extends BufferBound where
  buffer : List BufferEntry := []
  samples : ℤ := 0
  totalReceived : ℕ := 0
  closed : Bool := false

inductive ReadOutcome where
  | frames (frames : List InputFrame)
  /-- Too few are there: `try_read` returns `None`, and a read waits on. -/
  | tooFew
  /-- It raises `BufferClosed`. -/
  | closed
  /-- It raises the `ValueError` for more frames than the bound. -/
  | overBound
  deriving DecidableEq

namespace InputBuffer

variable (b : InputBuffer)

def samplesOf (entries : List BufferEntry) : ℤ :=
  entries.foldr (fun entry samples => entry.frame.sampleCount + samples) 0

/-- `_over_bound`, of a deque and its count of samples. -/
def overBound (buffer : List BufferEntry) (samples : ℤ) : Bool :=
  match b.maxSamples with
  | some maxSamples => decide (maxSamples < samples) || decide (b.maxFrames < buffer.length)
  | none => decide (b.maxlen < buffer.length)

/-- The count of samples without those of an entry, which only a bound on them keeps. -/
def without (samples : ℤ) (gone : BufferEntry) : ℤ :=
  if b.maxSamples.isSome then samples - gone.frame.sampleCount else samples

/-- The loop of `push`: what is left of the deque, its samples, and how many frames of the session
went. -/
def evict (session : ℕ) : List BufferEntry → ℤ → ℕ → List BufferEntry × ℤ × ℕ
  | gone :: next :: rest, samples, evicted =>
    if b.overBound (gone :: next :: rest) samples then
      evict session (next :: rest) (b.without samples gone)
        (if gone.session = session then evicted + 1 else evicted)
    else (gone :: next :: rest, samples, evicted)
  | buffer, samples, evicted => (buffer, samples, evicted)

/-- `push`, and how many frames it reports as evicted. -/
def push (frame : InputFrame) (source : Option String) (session : ℕ) : InputBuffer × ℕ :=
  if b.closed then (b, 0)
  else
    let left := b.evict session (b.buffer ++ [⟨session, frame, source⟩])
      (b.samples + if b.maxSamples.isSome then frame.sampleCount else 0) 0
    ({ b with buffer := left.1, samples := left.2.1, totalReceived := b.totalReceived + 1 },
      left.2.2)

def takeFrames (n : ℕ) : ReadMode → InputBuffer × List InputFrame
  | .latest => ({ b with buffer := [], samples := 0 },
      (b.buffer.drop (b.buffer.length - n)).map (·.frame))
  | .fifo => ({ b with
      buffer := b.buffer.drop n
      samples := if b.maxSamples.isSome then b.samples - samplesOf (b.buffer.take n)
        else b.samples }, (b.buffer.take n).map (·.frame))

def frameBound : ℕ := if b.maxSamples.isSome then b.maxFrames else b.maxlen

/-- `_read`, as it looks at the deque under the lock. -/
def read (n : ℕ) (mode : ReadMode) : InputBuffer × ReadOutcome :=
  if b.frameBound < n then (b, .overBound)
  else if n ≤ b.buffer.length then
    ((b.takeFrames n mode).1, .frames (b.takeFrames n mode).2)
  else (b, if b.closed then .closed else .tooFew)

def tryRead (n : ℕ) (mode : ReadMode) : InputBuffer × ReadOutcome :=
  if b.closed then (b, .closed)
  else if b.buffer.length < n then (b, .tooFew)
  else ((b.takeFrames n mode).1, .frames (b.takeFrames n mode).2)

def clear : InputBuffer := { b with buffer := [], samples := 0 }

def close : InputBuffer := { b with closed := true }

def reset (throughSession : Option ℕ) : InputBuffer :=
  let buffer := match throughSession with
    | none => []
    | some through => b.buffer.filter fun entry => decide (through < entry.session)
  { b with closed := false, buffer, samples := samplesOf buffer, totalReceived := buffer.length }

def holds (frames samples : ℕ) : Bool :=
  match b.maxSamples with
  | some maxSamples => decide (frames ≤ b.maxFrames) && decide (samples ≤ maxSamples)
  | none => decide (frames ≤ b.maxlen)

/-! ### What a buffer holds -/

variable {b}

theorem mem_evict {session : ℕ} {buffer : List BufferEntry} {samples : ℤ} {evicted : ℕ}
    {entry : BufferEntry} (h : entry ∈ (b.evict session buffer samples evicted).1) :
    entry ∈ buffer := by
  fun_induction evict b session buffer samples evicted with
  | case1 gone next rest samples evicted hover ih => exact List.mem_cons_of_mem _ (ih h)
  | case2 gone next rest samples evicted hover => exact h
  | case3 buffer samples evicted hne => exact h

theorem mem_push {frame : InputFrame} {source : Option String} {session : ℕ} {entry : BufferEntry}
    (h : entry ∈ (b.push frame source session).1.buffer) :
    entry ∈ b.buffer ∨ entry = ⟨session, frame, source⟩ := by
  rw [push] at h
  by_cases hclosed : b.closed = true
  · rw [if_pos hclosed] at h
    exact .inl h
  · rw [if_neg hclosed] at h
    exact (List.mem_append.mp (mem_evict h)).imp_right List.mem_singleton.mp

theorem mem_takeFrames {n : ℕ} {mode : ReadMode} {entry : BufferEntry}
    (h : entry ∈ (b.takeFrames n mode).1.buffer) : entry ∈ b.buffer := by
  cases mode with
  | latest => exact absurd h List.not_mem_nil
  | fifo => exact List.mem_of_mem_drop h

theorem mem_read {n : ℕ} {mode : ReadMode} {entry : BufferEntry}
    (h : entry ∈ (b.read n mode).1.buffer) : entry ∈ b.buffer := by
  unfold read at h
  split_ifs at h
  · exact h
  · exact mem_takeFrames h
  · exact h
  · exact h

theorem mem_tryRead {n : ℕ} {mode : ReadMode} {entry : BufferEntry}
    (h : entry ∈ (b.tryRead n mode).1.buffer) : entry ∈ b.buffer := by
  unfold tryRead at h
  split_ifs at h
  · exact h
  · exact h
  · exact mem_takeFrames h

theorem mem_reset {through : Option ℕ} {entry : BufferEntry} :
    entry ∈ (b.reset through).buffer ↔
      entry ∈ b.buffer ∧ ∃ session, through = some session ∧ session < entry.session := by
  cases through with
  | none => simp [reset]
  | some session => simp [reset]

end InputBuffer

end ReactorRuntime.Interface
