import ReactorRuntime.Recording.Recorder

/-!
# The session: its states, its events, and the machine that moves it

`SessionStateMachine` is the source's machine: a table for the events whose target is fixed by the
state (`TRANSITIONS`), and the number of live connections, which decides where the opening or the
closing of a connection leads.  A connection that does not occupy the session opens and closes as a
self-loop (`sendWithoutOccupancy`).

`SessionStart` is the shape a session starts with, as `parse_session_start` returns it; the reading
of the request body is left out.
-/

namespace ReactorRuntime.Runtime

/-! ### States and events -/

/-- The lifecycle states one session moves through. -/
inductive SessionState where
  | created
  | ready
  | waiting
  | streaming
  | orphaned
  | closing
  | terminated
  deriving DecidableEq, Repr

/-- The events that drive moves between session states. -/
inductive SessionEvent where
  | initializationSuccess
  | initializationFail
  | initializing
  | startSession
  | stopSession
  | timeout
  | connectionOpened
  | connectionClosed
  | connectionAnswered
  | cleanupComplete
  | eviction
  | chunkReady
  | clipReady
  | command
  | error
  | metric
  | stepCompleted
  | stepResultReady
  deriving DecidableEq, Repr

def SessionEvent.isJournal : SessionEvent → Bool
  | .chunkReady | .clipReady | .command | .error | .metric | .stepCompleted | .stepResultReady =>
    true
  | _ => false

def SessionEvent.isConnection : SessionEvent → Bool
  | .connectionOpened | .connectionClosed => true
  | _ => false

def SessionState.isRunning : SessionState → Bool
  | .waiting | .streaming | .orphaned => true
  | _ => false

def SessionState.isConnectable : SessionState → Bool
  | .waiting | .orphaned | .streaming => true
  | _ => false

/-- `_STALE_CONNECTION_STATES`, the states a stale wire can land in. -/
def SessionState.isStale : SessionState → Bool
  | .ready | .closing | .terminated => true
  | _ => false

/-- `_TRANSITIONS`: where an event leads that is not a connection's, or `none` where it is
illegal. -/
def TRANSITIONS : SessionEvent → SessionState → Option SessionState
  | .initializationSuccess, .created => some .ready
  | .initializationFail, .created => some .terminated
  | .initializing, .created => some .created
  | .startSession, .ready => some .waiting
  | .stopSession, .streaming => some .closing
  | .stopSession, .waiting => some .closing
  | .stopSession, .orphaned => some .closing
  | .timeout, .waiting => some .closing
  | .timeout, .orphaned => some .closing
  | .cleanupComplete, .closing => some .ready
  | .eviction, .terminated => none
  | .eviction, _ => some .terminated
  | .connectionAnswered, state => some state
  | .chunkReady, state => some state
  | .clipReady, state => some state
  | .command, state => some state
  | .error, state => some state
  | .metric, state => some state
  | .stepCompleted, state => some state
  | .stepResultReady, state => some state
  | _, _ => none

/-! ### The machine -/

/-- The state of the session and the number of connections that occupy it. -/
structure SessionStateMachine where
  state : SessionState := .created
  live : ℕ := 0
  deriving DecidableEq, Repr

namespace SessionStateMachine

def resolve (m : SessionStateMachine) : SessionEvent → Option SessionState
  | .connectionOpened => if m.state.isConnectable then some .streaming else none
  | .connectionClosed =>
    if m.state ≠ .streaming then none
    else if m.live ≤ 1 then some .orphaned else some .streaming
  | event => TRANSITIONS event m.state

def updateCount (m : SessionStateMachine) (event : SessionEvent) : ℕ :=
  if event = .connectionOpened then m.live + 1
  else if event = .connectionClosed then m.live - 1
  else if event = .connectionAnswered ∨ event.isJournal then m.live
  else 0

/-- `send`, before the listeners; `none` is an event rejected. -/
def send (m : SessionStateMachine) (event : SessionEvent) : Option SessionStateMachine :=
  (m.resolve event).map fun target => { state := target, live := m.updateCount event }

def sendWithoutOccupancy (m : SessionStateMachine) : Option SessionStateMachine :=
  if m.state.isConnectable then some m else none

end SessionStateMachine

/-! ### Transitions -/

/-- Why a session ended. -/
inductive EndReason where
  | stopped
  | timedOut
  | evicted
  | moderated
  | error
  | startRefused
  deriving DecidableEq, Repr

abbrev ConnId := ℕ

structure ConnectionOrigin where
  transport : String
  identity : Option String
  system : Bool
  deriving DecidableEq, Repr

structure ConnectionDetail where
  connId : ConnId
  system : Bool
  transport : Option String
  identity : Option String
  deriving DecidableEq, Repr

inductive Generation where
  | streamed
  | stepped
  deriving DecidableEq, Repr

/-- The largest `steps` a session can start with. -/
def MAX_STEPS : ℕ := 10000

/-- A number of steps that `_steps` accepts. -/
abbrev Steps := { n : ℕ // 1 ≤ n ∧ n ≤ MAX_STEPS }

structure StartingCommand where
  command : String
  deriving DecidableEq, Repr

/-- The shape a session starts with.  A starting input is given as the commands it runs
(`as_commands`). -/
structure SessionStart where
  startingInput : Option (List StartingCommand) := none
  steps : Option Steps := none
  generation : Generation := .streamed
  deriving DecidableEq

/-- The parameters of a start: the `session_id` of the caller, and the shape. -/
structure SessionParams where
  sessionId : Option String := none
  start : SessionStart := {}
  deriving DecidableEq

/-- What a start draws from outside: a fresh id, and how the recording's directories come about. -/
structure Drawn where
  uuid : String
  directory : Recording.DirectoryReturn := .made
  deriving DecidableEq

/-- What a move carries beside its event. -/
inductive Detail where
  | params (params : SessionParams) (drawn : Drawn)
  | connection (detail : ConnectionDetail)
  | answer (connId : ConnId)
  | ending (reason : EndReason) (closeReason : String)
  | step (number : ℕ) (saved : Bool) (error : Option String)
  /-- The payload of any other fact. -/
  | fact
  deriving DecidableEq

structure Transition where
  event : SessionEvent
  fromState : SessionState
  toState : SessionState
  detail : Detail
  deriving DecidableEq

namespace Transition

/-- Whether the move opens a session (`READY` to `WAITING`). -/
def isSessionStart (t : Transition) : Bool := t.fromState = .ready ∧ t.toState = .waiting

def isSessionEnd (t : Transition) : Bool := t.fromState = .closing ∧ t.toState = .ready

/-- The end reason the move carries, and the close reason, `STOPPED` and none by default. -/
def ending (t : Transition) : EndReason × String :=
  match t.detail with
  | .ending reason closeReason => (reason, closeReason)
  | _ => (.stopped, "")

end Transition

end ReactorRuntime.Runtime
