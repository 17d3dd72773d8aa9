import ReactorRuntime.Runtime.ConnectionManager
import ReactorRuntime.Runtime.EventStream
import ReactorRuntime.TransitionSystem.Basic

/-!
# The runner: sessions, connections, steps and teardown

The runner holds the session machine, the registry of connections, the journal, the recorder and
what it counts of the session, and everything it does happens on one event loop.  A step of
`runner` is one callback of that loop, or the part of one between two awaits: a start or a stop, a
connection opening or closing, the next action of a starting input or of a teardown, a report that
hopped over from the model's thread; or one access of a recorder's `stop()`, which runs on a thread
of its own.

`dispatchTransition` is the one listener that drives the side effects of a move.

Left out: the orphan timer, whose `TIMEOUT` can come at any moment; what is sent to the clients; the
uploads; the statistics; the store of step results, which takes a step or not (`saved`).
-/

namespace ReactorRuntime.Runtime

open Recording

/-- The id every session has on the wire, and the recording id before the first session. -/
def SESSION_ID : String := "00000000-0000-0000-0000-000000000000"

def STEPS_CLOSE_REASON : String := "Session ended: the requested steps are complete."

/-- A fact the runner hands to the model. -/
inductive ReactorEvent where
  | sessionStarted (startingInput stepped : Bool) (steps : Option ℕ)
  | sessionEnded (reason : EndReason)
  | clientConnected (connId : ConnId) (total : ℕ) (system : Bool)
  | clientDisconnected (connId : ConnId) (total : ℕ)
  | startingInputApplied
  deriving DecidableEq

/-- A step the model reports finished, by the session it began in and, in a stepped session, the
number the model gave the request it answers. -/
structure CompletedStep where
  session : ℕ
  request : Option ℕ := none
  error : Option String := none
  deriving DecidableEq

/-- The event a client's commands wait on until the session's starting input is submitted: which
one it is, a new one being made for each session, and whether it is set. -/
structure StartingInputDone where
  number : ℕ := 0
  isSet : Bool := true
  deriving DecidableEq

/-- `_apply_starting_input`: its own event, the commands left, and whether the first of them is
with `_submit_command`. -/
structure StartingTask where
  done : ℕ
  remaining : List StartingCommand
  submitting : Bool := false
  deriving DecidableEq

/-- A teardown that closes the connections: `_close_session`, with the reason it unwinds the session
for, or the `close_all` of an eviction.  `cleared` is set once the registry is empty and the wires
are being closed. -/
structure Teardown where
  cleanup : Option EndReason
  cleared : Bool := false
  deriving DecidableEq

structure Runner where
  machine : SessionStateMachine := {}
  connections : ConnectionManager := {}
  offerEpochs : OfferEpochs := {}
  events : EventStream := {}
  recorder : Recorder := {}
  recordingId : String := SESSION_ID
  sessionStart : SessionStart := {}
  startingInputDone : StartingInputDone := {}
  stepsCompleted : ℕ := 0
  startingRequestIds : Finset ℕ := ∅
  stepsFailed : Bool := false
  sessionsPosted : ℕ := 0
  /-- The tasks that apply a starting input. -/
  startingInputs : List StartingTask := []
  /-- The teardowns spawned. -/
  teardowns : List Teardown := []
  /-- The recorder's `stop()` calls spawned. -/
  stops : List Stop := []
  /-- What was handed to the model, in order. -/
  posted : List ReactorEvent := []
  /-- The admitted offers whose connection has not been reported. -/
  offers : List ConnId := []
  /-- History: the session each starting command's request id was made in; an id is its place. -/
  requests : List ℕ := []
  /-- History: the shapes of the sessions started, in order. -/
  starts : List SessionStart := []
  /-- History: the sessions whose remaining steps were recorded as failed. -/
  failedSessions : List ℕ := []
  /-- History: the connections that were registered as a session entered `CLOSING`, over all
  sessions. -/
  attached : ℕ := 0

namespace Runner

variable (recording : Bool)

/-! ### The side effects of a move -/

def recordingIdFrom (params : SessionParams) (uuid : String) : String :=
  match params.sessionId with
  | none => uuid
  | some sessionId => if sessionId = "" then uuid else sessionId

/-- The recording id and the shape of the session a move opens. -/
def resolveStart (r : Runner) (t : Transition) : Runner :=
  match t.isSessionStart, t.detail with
  | true, .params params drawn => { r with
      recordingId := recordingIdFrom params drawn.uuid
      sessionStart := params.start
      starts := r.starts ++ [params.start] }
  | _, _ => r

def dispatchReactorEvents (r : Runner) (t : Transition) : Runner :=
  let r := if t.isSessionStart then
      { r with
        sessionsPosted := r.sessionsPosted + 1
        posted := r.posted ++ [.sessionStarted r.sessionStart.startingInput.isSome
          (r.sessionStart.generation = .stepped) (r.sessionStart.steps.map Subtype.val)] }
    else r
  let r := if t.isSessionEnd then
      { r with posted := r.posted ++ [.sessionEnded t.ending.1] }
    else r
  match t.event, t.detail with
  | .connectionOpened, .connection detail => { r with
      posted := r.posted ++ [.clientConnected detail.connId r.connections.count detail.system] }
  | .connectionClosed, .connection detail => { r with
      posted := r.posted ++ [.clientDisconnected detail.connId r.connections.count] }
  | _, _ => r

def startRecorder (r : Runner) (t : Transition) : Runner :=
  match t.isSessionStart, t.detail with
  | true, .params _ drawn =>
    if r.sessionStart.generation = .streamed then
      { r with recorder :=
          r.recorder.start recording r.recordingId r.sessionsPosted drawn.directory }
    else r
  | _, _ => r

/-- A `stop()` of the recorder is spawned, and a teardown of the connections. -/
def spawnTeardown (r : Runner) (cleanup : Option EndReason) : Runner :=
  { r with
    startingInputDone := { r.startingInputDone with isSet := true }
    stops := r.stops ++ [{ session := r.sessionsPosted }]
    teardowns := r.teardowns ++ [{ cleanup }] }

/-- What a move does as it enters `CLOSING`, or `TERMINATED` by an eviction. -/
def enterState (r : Runner) (t : Transition) : Runner :=
  if t.fromState = t.toState then r
  else if t.toState = .closing then
    { r with attached := r.attached + r.connections.count }.spawnTeardown (some t.ending.1)
  else if t.toState = .terminated ∧ t.event = .eviction then r.spawnTeardown none
  else r

def dispatchTransition (r : Runner) (t : Transition) : Runner :=
  let r := r.resolveStart t
  let r := { r with events := r.events.emit t }
  let r := r.dispatchReactorEvents t
  let r := r.startRecorder recording t
  r.enterState t

def move (r : Runner) (machine : SessionStateMachine) (event : SessionEvent) (detail : Detail) :
    Runner :=
  { r with machine }.dispatchTransition recording
    { event, fromState := r.machine.state, toState := machine.state, detail }

/-- The machine's `send`, with its listener. -/
def send (r : Runner) (event : SessionEvent) (detail : Detail) : Runner :=
  match r.machine.send event with
  | none => r
  | some machine => r.move recording machine event detail

def sendWithoutOccupancy (r : Runner) (event : SessionEvent) (detail : Detail) : Runner :=
  match r.machine.sendWithoutOccupancy with
  | none => r
  | some machine => r.move recording machine event detail

/-! ### Connections -/

def register (r : Runner) (conn : Connection) (system occupies : Bool) : Runner :=
  if conn.id ∈ r.connections.byId then
    { r with connections := r.connections.replace conn }
  else
    let detail := connectionDetail conn system
    let r := { r with connections := r.connections.add conn detail occupies }
    if occupies then r.send recording .connectionOpened (.connection detail)
    else r.sendWithoutOccupancy recording .connectionOpened (.connection detail)

/-- `ConnectionManager.drop`.  An id with no detail would raise once it is out of the registry. -/
def drop (r : Runner) (cid : ConnId) : Runner :=
  if cid ∉ r.connections.byId then r
  else match r.connections.details.lookup cid with
    | none => { r with connections := { r.connections with byId := r.connections.byId.erase cid } }
    | some detail =>
      let unoccupying := cid ∈ r.connections.unoccupying
      let r := { r with connections := r.connections.remove cid }
      if unoccupying then r.sendWithoutOccupancy recording .connectionClosed (.connection detail)
      else r.send recording .connectionClosed (.connection detail)

/-- `connection_opened`; a connection that is refused is closed. -/
def connectionOpened (r : Runner) (conn : Connection) : Runner :=
  let stale := r.offerEpochs.stale conn.id
  let r := { r with offerEpochs := r.offerEpochs.consume conn.id }
  if r.machine.state.isStale ∨ stale = true then r
  else r.register recording conn false true

/-! ### Starting a session -/

def runsUnattended (r : Runner) : Bool :=
  r.sessionStart.steps.isSome && r.sessionStart.generation ≠ .stepped

/-- The end of `_begin_session_inputs`: a starting input is applied by a task of its own. -/
def spawnStartingInput (r : Runner) (number : ℕ) : Runner :=
  match r.sessionStart.startingInput with
  | none => { r with startingInputDone := { number, isSet := true } }
  | some remaining =>
    { r with startingInputs := r.startingInputs ++ [{ done := number, remaining }] }

def beginSessionInputs (r : Runner) : Runner :=
  let number := r.startingInputDone.number + 1
  let r := { r with
    startingInputDone := { number, isSet := false }
    stepsCompleted := 0
    startingRequestIds := ∅
    stepsFailed := false }
  let r :=
    if r.sessionStart.startingInput.isSome || r.runsUnattended then
      r.register recording SystemConnection true r.runsUnattended
    else r
  r.spawnStartingInput number

/-- `start_session`, of a request whose shape the model can run. -/
def startSession (r : Runner) (params : SessionParams) (drawn : Drawn) : Runner :=
  if (r.machine.send .startSession).isNone then r
  else
    let r := r.send recording .startSession (.params params drawn)
    let r := { r with offerEpochs := r.offerEpochs.sessionStarted }
    r.beginSessionInputs recording

/-- Whether a starting input is still the live session's. -/
def applies (r : Runner) (task : StartingTask) : Bool :=
  r.startingInputDone.number = task.done && r.machine.state.isRunning

/-- The end of `_apply_starting_input`. -/
def finishStartingInput (r : Runner) (task : StartingTask) : Runner :=
  let r :=
    if r.applies task then
      let r := if r.runsUnattended then r else r.drop recording SYSTEM_CONN_ID
      { r with posted := r.posted ++ [.startingInputApplied] }
    else r
  if r.startingInputDone.number = task.done then
    { r with startingInputDone := { r.startingInputDone with isSet := true } }
  else r

/-- The next action of `_apply_starting_input`, and the task that is left of it.  `refusal` is why
`_submit_command` refused the command it was given, if it returns. -/
def applyStartingInput (r : Runner) (task : StartingTask) (refusal : Option String) :
    Runner × Option StartingTask :=
  match task.submitting, task.remaining with
  | _, [] => (r.finishStartingInput recording task, none)
  | false, _ :: _ =>
    if r.applies task = false then (r.finishStartingInput recording task, none)
    else
      ({ r with
          startingRequestIds := insert r.requests.length r.startingRequestIds
          requests := r.requests ++ [r.sessionsPosted] },
        some { task with submitting := true })
  | true, _ :: remaining =>
    match refusal with
    | none => (r.send recording .command .fact, some { task with remaining, submitting := false })
    | some refusal =>
      let r := r.send recording .error .fact
      if r.runsUnattended && r.applies task then
        let r := r.send recording .stopSession (.ending .startRefused refusal)
        (r.finishStartingInput recording task, none)
      else (r, some { task with remaining, submitting := false })

/-! ### Steps -/

/-- `_save_step`: number a step of the current session and journal it. -/
def saveStep (r : Runner) (step : CompletedStep) (saved : Bool) : Runner :=
  let number := step.request.getD (r.stepsCompleted + 1)
  { r with stepsCompleted := number }.send recording .stepCompleted
    (.step number saved step.error)

def recordStep (r : Runner) (step : CompletedStep) (saved : Bool) : Runner :=
  if step.session ≠ r.sessionsPosted then r
  else if r.stepsFailed then r
  else
    let r := r.saveStep recording step saved
    if r.sessionStart.steps.map Subtype.val = some r.stepsCompleted ∧ r.machine.state.isRunning then
      r.send recording .stopSession (.ending .stopped STEPS_CLOSE_REASON)
    else r

/-- One step of the loop of `_fail_remaining_steps`. -/
def failStep (saved : Bool) (error : String) (r : Runner) (number : ℕ) : Runner :=
  { r with stepsCompleted := number }.send recording .stepCompleted
    (.step number saved (some error))

def failRemainingSteps (r : Runner) (limit : ℕ) (error : String) (saved : Bool) : Runner :=
  let first := r.stepsCompleted + 1
  let r := { r with stepsFailed := true, failedSessions := r.failedSessions ++ [r.sessionsPosted] }
  let r := (List.range' first (limit + 1 - first)).foldl (failStep recording saved error) r
  r.send recording .stopSession (.ending .error error)

def failsRemainingSteps (r : Runner) (connId : ConnId) (requestId : ℕ) : Bool :=
  r.runsUnattended && connId = SYSTEM_CONN_ID && requestId ∈ r.startingRequestIds

def emitHandlerFailure (r : Runner) (connId : ConnId) (requestId : ℕ) (message : String)
    (saved : Bool) : Runner :=
  let r := r.send recording .error .fact
  match r.sessionStart.steps with
  | none => r
  | some limit =>
    if r.failsRemainingSteps connId requestId && r.machine.state.isRunning then
      r.failRemainingSteps recording limit message saved
    else r

/-! ### Teardown -/

/-- The next action of a teardown, and what is left of it. -/
def teardown (r : Runner) (task : Teardown) : Runner × Option Teardown :=
  if task.cleared = false then
    ({ r with connections := r.connections.clear }, some { task with cleared := true })
  else
    match task.cleanup with
    | none => (r, none)
    | some reason => (r.send recording .cleanupComplete (.ending reason ""), none)

/-- The next access of a recorder's `stop()`. -/
def stopRecorder (r : Runner) (stop : Stop) : Runner × Stop :=
  let (recorder, phase) := stop.phase.step r.recorder
  ({ r with recorder }, { stop with phase })

end Runner

/-! ### Runs -/

/-- What happens next. -/
inductive Label where
  /-- The model begins to load. -/
  | initializing
  /-- The model finishes loading, or fails to. -/
  | initialized (success : Bool)
  | startSession (params : SessionParams) (drawn : Drawn)
  /-- `offer_admitted`. -/
  | offerAdmitted (connId : ConnId)
  | connectionOpened (conn : Connection)
  | connectionClosed (connId : ConnId)
  | connectionAnswered (connId : ConnId)
  /-- The next action of a task that applies a starting input. -/
  | startingInput (task : ℕ) (refusal : Option String)
  /-- A report hops onto the loop.  The model takes a request for a step in a stepped session only,
  so a report that answers one comes from such a session. -/
  | recordStep (step : CompletedStep) (saved : Bool)
  | handlerFailed (connId : ConnId) (requestId : ℕ) (message : String) (saved : Bool)
  | stopSession (reason : EndReason) (closeReason : String)
  | timeout
  | evicted
  /-- A journal fact that is not a step. -/
  | journal (event : SessionEvent)
  | teardown (task : ℕ)
  | stopRecorder (stop : ℕ)

/-- The next state; `recording` is whether recording is turned on by config. -/
def next (recording : Bool) (r : Runner) : Label → Option Runner
  | .initializing => some (r.send recording .initializing .fact)
  | .initialized success =>
    some (r.send recording (if success then .initializationSuccess else .initializationFail) .fact)
  | .startSession params drawn => some (r.startSession recording params drawn)
  | .offerAdmitted connId =>
    if r.machine.state.isRunning then
      some { r with offerEpochs := r.offerEpochs.stamp connId, offers := connId :: r.offers }
    else none
  | .connectionOpened conn =>
    if conn.id ∈ r.offers then
      some ({ r with offers := r.offers.erase conn.id }.connectionOpened recording conn)
    else none
  | .connectionClosed connId => some (r.drop recording connId)
  | .connectionAnswered connId => some (r.send recording .connectionAnswered (.answer connId))
  | .startingInput task refusal =>
    match r.startingInputs[task]? with
    | none => none
    | some t =>
      let (r', t') := r.applyStartingInput recording t refusal
      some { r' with
        startingInputs := match t' with
          | none => r'.startingInputs.eraseIdx task
          | some t' => r'.startingInputs.set task t' }
  | .recordStep step saved =>
    if step.request.isSome ∧ step.session = r.sessionsPosted ∧
        r.sessionStart.generation ≠ .stepped then none
    else some (r.recordStep recording step saved)
  | .handlerFailed connId requestId message saved =>
    some (r.emitHandlerFailure recording connId requestId message saved)
  | .stopSession reason closeReason =>
    some (r.send recording .stopSession (.ending reason closeReason))
  | .timeout => some (r.send recording .timeout (.ending .timedOut ""))
  | .evicted => some (r.send recording .eviction (.ending .error ""))
  | .journal event =>
    if event.isJournal ∧ event ≠ .stepCompleted then some (r.send recording event .fact) else none
  | .teardown task =>
    match r.teardowns[task]? with
    | none => none
    | some t =>
      let (r', t') := r.teardown recording t
      some { r' with
        teardowns := match t' with
          | none => r'.teardowns.eraseIdx task
          | some t' => r'.teardowns.set task t' }
  | .stopRecorder stop =>
    match r.stops[stop]? with
    | none => none
    | some t =>
      let (r', t') := r.stopRecorder t
      some { r' with stops := r'.stops.set stop t' }

/-- The runner, from before the model is loaded. -/
def runner (recording : Bool) : TransitionSystem Runner Label where
  init := {}
  step := next recording

attribute [local simp] next

end ReactorRuntime.Runtime
