import ReactorRuntime.Interface.InputBuffer
import ReactorRuntime.Interface.LiveGate
import ReactorRuntime.TransitionSystem.Basic

/-!
# The driver of a `ReactorPipeline`

The driver waits on the live gate, creates a generator with `inference()` and advances it one yield
at a time under the step lock.  Once the gate has dropped it closes the generator, resets the input
buffers and waits again.  What the generator does is in the labels, and so is when each await ends.

A step is one of the model's loop up to its next await, or one of the runtime's thread on a track.
The loop stands still in a turn of a generator that is not async, and while that is closed.  `log`
is the history, the newest first.

Left out: the clients, the state, what handlers and hooks do, a factory of the state that raises,
and what becomes of the outputs.
-/

namespace ReactorRuntime.Interface

/-- Who takes the step lock. -/
inductive LockParty where
  | dispatcher
  | driver
  deriving DecidableEq

/-- The step lock, an `asyncio.Lock`: who holds it, and who waits for it, the first at the head. -/
structure StepLock where
  holder : Option LockParty := none
  waiters : List LockParty := []
  deriving DecidableEq

namespace StepLock

variable (lock : StepLock) (party : LockParty)

def seize : Option StepLock :=
  if lock.holder = none ∧ lock.waiters = [] then some { lock with holder := some party } else none

def wait : StepLock := { lock with waiters := lock.waiters ++ [party] }

def grant : Option StepLock :=
  if lock.holder = none ∧ lock.waiters.head? = some party then
    some { holder := some party, waiters := lock.waiters.tail }
  else none

def release : StepLock := { lock with holder := none }

def leave : StepLock := { lock with waiters := lock.waiters.erase party }

end StepLock

/-- What the driver reads of a pipeline's class. -/
structure PipelineClass where
  isAsync : Bool
  /-- The bounds of its input tracks. -/
  bounds : String → BufferBound
  /-- Whether its contract has a hook for an event. -/
  hook : ReactorEvent → Bool

/-- What takes the step lock on the dispatcher's side: a command, or an event. -/
abbrev Handled := Option ReactorEvent

/-- Where the inbound loop is. -/
inductive DispatchStage where
  | idle
  | locking (item : Handled)
  /-- In a handler or a hook, under the step lock. -/
  | handling (item : Handled)
  deriving DecidableEq

inductive DriverStage where
  /-- In `self._live.wait()`; `woken`: the gate was set since. -/
  | waiting (woken : Bool)
  /-- Waits for the step lock. -/
  | locking
  /-- In a turn of the generator, under the step lock. -/
  | advancing
  /-- In the sleep after a skipped turn or a restart. -/
  | pausing
  | emitting
  /-- Closes the generator; `clean`: the loop raised nothing. -/
  | closing (clean : Bool)
  /-- `run` has ended. -/
  | over
  deriving DecidableEq

def DriverStage.inLoop : DriverStage → Bool
  | .locking | .advancing | .pausing | .emitting => true
  | _ => false

def DriverStage.inCycle : DriverStage → Bool
  | .closing _ => true
  | stage => stage.inLoop

/-- How a turn of the generator ends. -/
inductive Turn where
  | output
  /-- It yielded `Idle` or `None`. -/
  | idle
  | finished
  /-- It raised `BufferClosed`. -/
  | bufferClosed
  /-- It raised, or yielded what is no `Output`. -/
  | raised
  deriving DecidableEq

inductive Act where
  | pushed (track : String) (session : ℕ)
  /-- A generator was created in a cycle that serves `session`. -/
  | created (generator session : ℕ) (gate : LiveGate)
  /-- A generator was advanced; `drops`: the gate had dropped so often. -/
  | advanced (generator session drops : ℕ)
  | finished (generator : ℕ)
  | closed (generator : ℕ)
  | reset (session : ℕ)
  deriving DecidableEq

structure ReactorPipeline where
  gate : LiveGate := {}
  lock : StepLock := {}
  dispatch : DispatchStage := .idle
  run : DriverStage := .waiting false
  /-- The session that the cycle serves. -/
  served : ℕ := 0
  /-- How many generators were created; the last is the one that the driver holds. -/
  generators : ℕ := 0
  inputBuffers : String → InputBuffer := fun _ => {}
  log : List Act := []

namespace ReactorPipeline

variable (cls : PipelineClass) (s : ReactorPipeline)

/-- The generator that the driver holds. -/
def generator : ℕ := s.generators - 1

/-- Whether the loop of the model stands still. -/
def blocked : Bool :=
  match s.run with
  | .advancing | .closing _ => !cls.isAsync
  | _ => false

/-! ### The driver -/

/-- `gen = inference_fn()`. -/
def inference : ReactorPipeline :=
  { s with
    generators := s.generators + 1
    log := .created s.generators s.served s.gate :: s.log }

/-- The step lock is held, and the generator advanced up to its next await. -/
def advance (lock : StepLock) : ReactorPipeline :=
  { s with
    lock
    run := .advancing
    log := .advanced s.generator s.served s.gate.gateDrops :: s.log }

/-- The head of the loop of a cycle. -/
def loop : ReactorPipeline :=
  if s.gate.live then
    match s.lock.seize .driver with
    | some lock => s.advance lock
    | none => { s with lock := s.lock.wait .driver, run := .locking }
  else { s with run := .closing true }

def cycle : ReactorPipeline := ({ s with served := s.gate.sessionsStarted }.inference).loop

/-- `self._live.wait()`, which returns at once where the gate is open. -/
def wait : ReactorPipeline := if s.gate.live then s.cycle else { s with run := .waiting false }

/-- A turn of the generator ends, and so does the hold of the step lock. -/
def endTurn (turn : Turn) : ReactorPipeline :=
  let s := { s with lock := s.lock.release }
  match turn with
  | .output => { s with run := .emitting }
  | .idle => { s with run := .pausing }
  | .finished =>
    { ({ s with log := .finished s.generator :: s.log }).inference with run := .pausing }
  | .bufferClosed => { s with run := .closing true }
  | .raised => { s with run := .closing false }

/-- The generator was closed, and the input buffers are reset.  `raises`: its cleanup did. -/
def close (clean raises : Bool) : ReactorPipeline :=
  let s := { s with
    inputBuffers := fun track => (s.inputBuffers track).reset (some s.served)
    log := .reset s.served :: .closed s.generator :: s.log }
  if clean && !raises then s.wait else { s with run := .over }

/-- The task of `run` is cancelled in its await. -/
def cancel : Option ReactorPipeline :=
  match s.run with
  | .waiting _ => some { s with run := .over }
  | .locking => some { s with lock := s.lock.leave .driver, run := .closing false }
  | .advancing => some { s with lock := s.lock.release, run := .closing false }
  | .pausing | .emitting => some { s with run := .closing false }
  | .closing _ => some (s.close false true)
  | .over => none

/-! ### The dispatcher -/

/-- The gate was set, or not; an `asyncio.Event` wakes those that wait for it as it is set. -/
def setGate (gate : LiveGate) : ReactorPipeline :=
  match s.run with
  | .waiting woken => { s with gate, run := .waiting (woken || gate.live) }
  | _ => { s with gate }

/-- What an event does after its hook, under the step lock. -/
def finish (item : Handled) : ReactorPipeline :=
  let s := { s with lock := s.lock.release, dispatch := .idle }
  match item with
  | some .sessionEnded => { s with
      gate := s.gate.retire
      inputBuffers := fun track =>
        if s.gate.stepped then (s.inputBuffers track).reset none else s.inputBuffers track }
  | _ => s

def handle (item : Handled) (lock : StepLock) : ReactorPipeline :=
  if item.all cls.hook then { s with lock, dispatch := .handling item }
  else { s with lock }.finish item

/-- The dispatcher takes the step lock, or waits for it. -/
def acquire (item : Handled) : ReactorPipeline :=
  match s.lock.seize .dispatcher with
  | some lock => s.handle cls item lock
  | none => { s with lock := s.lock.wait .dispatcher, dispatch := .locking item }

def takesLock (event : ReactorEvent) : Bool :=
  match event with
  | .sessionStarted .. | .sessionEnded => true
  | .startingInputApplied => false
  | .clientConnected .. | .clientDisconnected .. | .fileUploaded _ => cls.hook event

/-- `_dispatch_reactor_event`, up to its next await. -/
def dispatchReactorEvent (event : ReactorEvent) : ReactorPipeline :=
  let s := s.setGate (s.gate.dispatch event)
  if takesLock cls event then s.acquire cls (some event) else s

/-! ### The steps -/

/-- What happens next. -/
inductive Label where
  /-- The dispatcher takes an event, or a command. -/
  | event (event : ReactorEvent)
  | command
  /-- The dispatcher gets the step lock that it waited for. -/
  | granted
  /-- A handler or a hook ends. -/
  | handled
  /-- The driver's wait for the gate ends. -/
  | wakes
  /-- The driver gets the step lock that it waited for. -/
  | locks
  | turns (turn : Turn)
  | pauses
  | emits (raises : Bool)
  | closes (raises : Bool)
  | cancel
  /-- What the runtime and the model do to a track. -/
  | push (track : String) (frame : InputFrame) (source : Option String) (session : ℕ)
  | closeTrack (track : String)
  | read (track : String) (n : ℕ) (mode : ReadMode)
  | tryRead (track : String) (n : ℕ) (mode : ReadMode)
  | clear (track : String)
  deriving DecidableEq

def onBuffer (track : String) (buffer : InputBuffer) : ReactorPipeline :=
  { s with inputBuffers := Function.update s.inputBuffers track buffer }

def next : Label → Option ReactorPipeline
  | .event event =>
    if s.dispatch = .idle ∧ !s.blocked cls then some (s.dispatchReactorEvent cls event) else none
  | .command => if s.dispatch = .idle ∧ !s.blocked cls then some (s.acquire cls none) else none
  | .granted =>
    match s.dispatch with
    | .locking item =>
      if s.blocked cls then none else (s.lock.grant .dispatcher).map (s.handle cls item)
    | _ => none
  | .handled =>
    match s.dispatch with
    | .handling item => if s.blocked cls then none else some (s.finish item)
    | _ => none
  | .wakes => if s.run = .waiting true then some s.cycle else none
  | .locks => if s.run = .locking then (s.lock.grant .driver).map s.advance else none
  | .turns turn => if s.run = .advancing then some (s.endTurn turn) else none
  | .pauses => if s.run = .pausing then some s.loop else none
  | .emits raises =>
    if s.run = .emitting then some (if raises then { s with run := .closing false } else s.loop)
    else none
  | .closes raises =>
    match s.run with
    | .closing clean => some (s.close clean raises)
    | _ => none
  | .cancel => if s.blocked cls then none else s.cancel
  | .push track frame source session =>
    some { s.onBuffer track ((s.inputBuffers track).push frame source session).1 with
      log := .pushed track session :: s.log }
  | .closeTrack track => some (s.onBuffer track (s.inputBuffers track).close)
  | .read track n mode => some (s.onBuffer track ((s.inputBuffers track).read n mode).1)
  | .tryRead track n mode => some (s.onBuffer track ((s.inputBuffers track).tryRead n mode).1)
  | .clear track => some (s.onBuffer track (s.inputBuffers track).clear)

end ReactorPipeline

/-- A pipeline of a class, from the start of its `run`. -/
def pipeline (cls : PipelineClass) : TransitionSystem ReactorPipeline ReactorPipeline.Label where
  init := { inputBuffers := fun track => { toBufferBound := cls.bounds track } }
  step s := s.next cls

attribute [local simp] ReactorPipeline.next

end ReactorRuntime.Interface
