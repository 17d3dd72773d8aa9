import ReactorRuntime.TransitionSystem.Basic
import Mathlib.Data.List.Basic

/-!
# The step store: admissions, the writer thread and `close()`

The runtime offers each step of a session to the store (`admit`, here `admitStep`) and, once, the
steps that failed together (`admit_failed`); the writer thread saves them in its own time.  A step
of the model is one action that the other threads can see: `_ensure_started`, a `put`, a `get`, a
look at an event, a save.  `close()` and the two halves of an admission exclude each other through
`_admit_lock`.

The runtime's part is what the runner does: it admits only for the session it runs, and once the
session's remaining steps were recorded as failed (`_steps_failed`) it admits nothing more for it.

Left out: the folders a save writes, the callback it makes, the reaper, and the clock that limits
the warnings about a full queue.
-/

namespace ReactorRuntime.StepResults

/-! ### Session ids -/

/-- The digits of a lowercase UUID. -/
def isHex (c : Char) : Bool :=
  ('0' ≤ c && c ≤ '9') || ('a' ≤ c && c ≤ 'f')

/-- `_SESSION_ID_RE`, one test for each character: groups of 8, 4, 4, 4 and 12 digits joined by
dashes. -/
def SESSION_ID_RE : List (Char → Bool) :=
  List.intercalate [(· == '-')] ([8, 4, 4, 4, 12].map fun n => List.replicate n isHex)

/-- Whether the characters pass the tests in turn.  The pattern ends in `$`, which also matches
before a newline that ends the text. -/
def matchesAll : List (Char → Bool) → List Char → Bool
  | [], rest => rest == [] || rest == ['\n']
  | _ :: _, [] => false
  | test :: tests, c :: rest => test c && matchesAll tests rest

/-- Whether the store saves the steps of a session with this id. -/
def isSessionId (sessionId : String) : Bool := matchesAll SESSION_ID_RE sessionId.toList

example : isSessionId "01234567-89ab-cdef-0123-456789abcdef" = true := by decide +kernel

example : isSessionId "../../01234567-89ab-cdef-0123-456789" = false := by decide +kernel

/-! ### Pending saves -/

/-- What the model reported of a step. -/
structure CompletedStep (Bundle : Type*) where
  bundle : Option Bundle
  error : Option String
  deriving DecidableEq

structure Pending (Bundle Message : Type*) where
  sessionId : String
  step : ℕ
  completed : CompletedStep Bundle
  messages : List Message
  /-- The last step of a failed range; at most `step` for one step. -/
  last : ℕ := 0
  deriving DecidableEq

variable {Bundle Message : Type*}

/-- One pending save for each step the entry covers. -/
def Pending.steps (p : Pending Bundle Message) : List (Pending Bundle Message) :=
  if p.last ≤ p.step then [p]
  else (List.range' p.step (p.last + 1 - p.step)).map fun step =>
    { sessionId := p.sessionId, step, completed := p.completed,
      messages := if step = p.step then p.messages else [] }

/-- An entry of the queues.  The session it was admitted in, counted from the first the runtime
started, and its number among the admissions taken are history: no step reads them. -/
structure Entry (Bundle Message : Type*) where
  session : ℕ
  ticket : ℕ
  pending : Pending Bundle Message
  deriving DecidableEq

/-- The saves an entry stands for. -/
def Entry.steps (e : Entry Bundle Message) : List (Entry Bundle Message) :=
  e.pending.steps.map fun p => { e with pending := p }

/-! ### The writer thread -/

/-- Where the writer thread goes on once it has saved an entry. -/
inductive Turn (Bundle Message : Type*) where
  /-- The head of the loop in `_work`. -/
  | loop
  /-- The first loop of `_save_range`, with so many turns left. -/
  | drain (failed : Entry Bundle Message) (turns : ℕ)
  /-- The second loop of `_save_range`, with these steps left. -/
  | range (rest : List (Entry Bundle Message))
  deriving DecidableEq

/-- Where the writer thread is. -/
inductive Worker (Bundle Message : Type*) where
  | unstarted
  | next (turn : Turn Bundle Message)
  /-- Before `_failed.get_nowait()`. -/
  | getFailed
  /-- In `_save_range`, before `_queue.qsize()`. -/
  | sizing (failed : Entry Bundle Message)
  /-- In `_queue.get(timeout=...)`. -/
  | waiting
  /-- The wait came back empty: before `_closing.is_set()`. -/
  | lookClosing
  /-- Before `_failed.empty()`. -/
  | lookFailed
  /-- Before `_abandon.is_set()`, with an entry in hand. -/
  | taken (entry : Entry Bundle Message) (turn : Turn Bundle Message)
  /-- In `_save_and_announce`. -/
  | saving (entry : Entry Bundle Message) (turn : Turn Bundle Message)
  | ended
  deriving DecidableEq

/-! ### The store -/

/-- An admission between `_ensure_started()` and its `put`, with `_admit_lock` held. -/
inductive Offer (Bundle Message : Type*) where
  | step (pending : Pending Bundle Message)
  | failed (pending : Pending Bundle Message)

/-- The store, the writer thread, and what the runtime keeps of the session it runs. -/
structure StepStore (Bundle Message : Type*) where
  queue : List (Entry Bundle Message) := []
  failed : List (Entry Bundle Message) := []
  closing : Bool := false
  abandon : Bool := false
  closed : Bool := false
  dropped : ℕ := 0
  worker : Worker Bundle Message := .unstarted
  offering : Option (Offer Bundle Message) := none
  /-- How many sessions the runtime started. -/
  session : ℕ := 0
  /-- The runner's `_recording_id`. -/
  recordingId : String := ""
  /-- The runner's `_steps_failed`. -/
  stepsFailed : Bool := false
  /-- History: the admissions that returned `True`, in order. -/
  admitted : List (Entry Bundle Message) := []
  /-- History: the saves, in order. -/
  saved : List (Entry Bundle Message) := []

namespace StepStore

def ensureStarted (s : StepStore Bundle Message) : StepStore Bundle Message :=
  match s.worker with
  | .unstarted => { s with worker := .next .loop }
  | _ => s

/-- `admit` up to its `put`; `none` inside is an admission refused. -/
def admitStep (s : StepStore Bundle Message) (p : Pending Bundle Message) :
    StepStore Bundle Message :=
  if isSessionId p.sessionId = false then s
  else if s.closed then s
  else { s.ensureStarted with offering := some (.step p) }

def admitFailed (s : StepStore Bundle Message) (sessionId : String) (first last : ℕ)
    (error : String) (messages : List Message) : StepStore Bundle Message :=
  if last < first then s
  else if isSessionId sessionId = false then s
  else if s.closed then s
  else { s.ensureStarted with
    offering := some (.failed
      { sessionId, step := first, completed := { bundle := none, error := some error },
        messages, last }) }

def entry (s : StepStore Bundle Message) (p : Pending Bundle Message) : Entry Bundle Message where
  session := s.session
  ticket := s.admitted.length
  pending := p

/-- Whether `put_nowait` raises `queue.Full`; a bound of 0 is none. -/
def full (s : StepStore Bundle Message) (maxsize : ℕ) : Bool :=
  0 < maxsize && maxsize ≤ s.queue.length

/-- The `put` of an admission and the release of the lock. -/
def put (maxsize : ℕ) (s : StepStore Bundle Message) : Offer Bundle Message →
    StepStore Bundle Message
  | .step p =>
    if s.full maxsize then { s with offering := none, dropped := s.dropped + 1 }
    else { s with
      offering := none
      queue := s.queue ++ [s.entry p]
      admitted := s.admitted ++ [s.entry p] }
  | .failed p => { s with
      offering := none
      failed := s.failed ++ [s.entry p]
      admitted := s.admitted ++ [s.entry p] }

/-- One action of the writer thread; a wait on an empty queue comes back empty. -/
def work (s : StepStore Bundle Message) : Option (StepStore Bundle Message) :=
  match s.worker with
  | .unstarted | .ended => none
  | .next .loop => some { s with worker := if s.abandon then .ended else .getFailed }
  | .getFailed =>
    match s.failed with
    | [] => some { s with worker := .waiting }
    | f :: rest => some { s with failed := rest, worker := .sizing f }
  | .sizing f => some { s with worker := .next (.drain f s.queue.length) }
  | .next (.drain f 0) => some { s with worker := .next (.range f.steps) }
  | .next (.drain f (turns + 1)) =>
    match s.queue with
    | [] => some { s with worker := .next (.range f.steps) }
    | e :: rest => some { s with queue := rest, worker := .taken e (.drain f turns) }
  | .next (.range []) => some { s with worker := .next .loop }
  | .next (.range (e :: rest)) => some { s with worker := .taken e (.range rest) }
  | .waiting =>
    match s.queue with
    | [] => some { s with worker := .lookClosing }
    | e :: rest => some { s with queue := rest, worker := .taken e .loop }
  | .lookClosing => some { s with worker := if s.closing then .lookFailed else .next .loop }
  | .lookFailed => some { s with worker := if s.failed.isEmpty then .ended else .next .loop }
  | .taken e turn => some { s with worker := if s.abandon then .ended else .saving e turn }
  | .saving e turn => some { s with worker := .next turn, saved := s.saved ++ [e] }

def saveRaises (s : StepStore Bundle Message) : Option (StepStore Bundle Message) :=
  match s.worker with
  | .saving _ turn => some { s with worker := .next turn }
  | _ => none

/-- `close()` up to the join: `_closed` and `_closing` are set under `_admit_lock`. -/
def close (s : StepStore Bundle Message) : StepStore Bundle Message :=
  { s with closed := true, closing := true }

/-- The join of `close()` runs out of time. -/
def drainExceeded (s : StepStore Bundle Message) : Option (StepStore Bundle Message) :=
  if s.closed = false ∨ s.abandon = true then none
  else match s.worker with
    | .unstarted | .ended => none
    | _ => some { s with abandon := true }

end StepStore

/-! ### Runs -/

/-- What happens next. -/
inductive Label (Bundle Message : Type*) where
  /-- The runtime starts a session under a recording id. -/
  | startSession (recordingId : String)
  | admitStep (step : ℕ) (completed : CompletedStep Bundle) (messages : List Message)
  | admitFailed (first last : ℕ) (error : String) (messages : List Message)
  | put
  | close
  | drainExceeded
  | work
  | saveRaises

/-- The next state.  The runtime's calls come from its event loop, one at a time. -/
def next (maxsize : ℕ) (s : StepStore Bundle Message) :
    Label Bundle Message → Option (StepStore Bundle Message)
  | .startSession recordingId =>
    if s.offering.isSome then none
    else some { s with session := s.session + 1, recordingId, stepsFailed := false }
  | .admitStep step completed messages =>
    if s.offering.isSome ∨ s.stepsFailed = true then none
    else some (s.admitStep { sessionId := s.recordingId, step, completed, messages })
  | .admitFailed first last error messages =>
    if s.offering.isSome ∨ s.stepsFailed = true then none
    else some ({ s with stepsFailed := true }.admitFailed s.recordingId first last error messages)
  | .put => s.offering.map (s.put maxsize)
  | .close => if s.offering.isSome ∨ s.closed = true then none else some s.close
  | .drainExceeded => s.drainExceeded
  | .work => s.work
  | .saveRaises => s.saveRaises

/-- The store with a queue bound of `maxsize`, from before its first session. -/
def store (Bundle Message : Type*) (maxsize : ℕ) :
    TransitionSystem (StepStore Bundle Message) (Label Bundle Message) where
  init := {}
  step := next maxsize

attribute [local simp] next

end ReactorRuntime.StepResults
