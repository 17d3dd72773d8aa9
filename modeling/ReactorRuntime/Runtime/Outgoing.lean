import ReactorRuntime.Protocol.MessageGateway
import ReactorRuntime.Runtime.Runner
import Mathlib.Data.List.DropRight

/-!
# What a model sends

The model's code runs on the model's thread: a handler or a hook for each item that the runner
posted, in order, and the steps of its loop.  Each runs in the session that the model is in, which
can lag behind the runner's by any number of sessions.  What it sends names a connection by its id,
or goes to all of them.

The runner is the one of `Runner`; a label is one of its steps, or a part of what the model's thread
does between two reads of what the two threads share.  `starting` says that the runner's loop is at
the start of a session, between clearing the messages kept for a step and posting the session.
`handed` and `kept` are the history.

Left out: the contents of messages, the sends that raise, and the results of steps.
-/

namespace ReactorRuntime.Runtime

open ReactorRuntime.Protocol (ProtocolVersion)

inductive ReplyRoute where
  | protocol
  | observer
  | none
  deriving DecidableEq

/-- What a connection's wire takes: its codec, and whether it observes messages as plain data. -/
structure Wire where
  version : ProtocolVersion
  observes : Bool
  deriving DecidableEq

/-- What the model sends to one connection. -/
inductive Reply where
  | message
  | acknowledgement
  | failure
  deriving DecidableEq

def Wire.takes (wire : Wire) : ReplyRoute → Reply → Bool
  | .none, _ => false
  | .observer, _ => wire.observes
  | .protocol, .message => true
  | .protocol, _ => wire.observes || decide (wire.version ≠ .v0)

/-- What the model's thread takes off its queue. -/
inductive Posted where
  | event (event : ReactorEvent)
  | command (connId : ConnId) (requestId : Option ℕ)
  deriving DecidableEq

inductive Code where
  /-- A handler or a hook. -/
  | handler
  | step
  deriving DecidableEq

/-- What hops over to the runner's loop, with the messages taken for it, each as the session of the
code that broadcast it. -/
inductive Hop where
  | step (step : CompletedStep) (messages : List ℕ)
  | failure (connId : ConnId) (requestId : ℕ) (message : String) (captured : List ℕ)
  deriving DecidableEq

/-- A connection was handed something: the session of the code, and the one that the connection was
registered in. -/
structure Handed where
  code : ℕ
  connId : ConnId
  registered : ℕ
  deriving DecidableEq

/-- A broadcast message was kept with a step's result. -/
structure Kept where
  code : ℕ
  step : ℕ
  deriving DecidableEq

/-- The runner, and the model's thread. -/
structure Outgoing where
  runner : Runner := {}
  /-- The session that the connection of an id was registered in. -/
  registeredIn : ConnId → ℕ := fun _ => 0
  replyRoutes : AList fun _ : ConnId × ℕ => ReplyRoute := ∅
  starting : Bool := false
  queue : List Posted := []
  /-- `_sessions_started`. -/
  sessionsStarted : ℕ := 0
  /-- The session of the handler that runs, and of the step. -/
  handling : Option ℕ := none
  stepping : Option ℕ := none
  /-- The session of the code that has kept a message and is to send it to all connections. -/
  broadcasting : Option ℕ := none
  /-- `_step_messages`, each as the session of the code that broadcast it. -/
  stepMessages : List ℕ := []
  hops : List Hop := []
  handed : List Handed := []
  kept : List Kept := []

namespace Outgoing

variable (recording storing : Bool) (wires : Connection → Wire) (s : Outgoing)

def session : Code → Option ℕ
  | .handler => s.handling
  | .step => s.stepping

def starts (r : Runner) : Runtime.Label → Bool
  | .startSession .. => (r.machine.send .startSession).isSome
  | _ => false

/-- The runner has made a step: what it registered, and what it posted. -/
def ran (runner : Runner) : Outgoing :=
  { s with
    runner
    registeredIn := fun id =>
      if runner.connections.byId.lookup id = s.runner.connections.byId.lookup id then
        s.registeredIn id
      else runner.sessionsPosted
    queue := s.queue ++ (runner.posted.drop s.runner.posted.length).map .event }

/-- A step of the runner that takes nothing from the model's thread. -/
def runtime (l : Runtime.Label) : Option Outgoing :=
  match l with
  | .recordStep .. | .handlerFailed .. => none
  | _ =>
    if starts s.runner l = s.starting then
      (Runtime.next recording s.runner l).map fun runner => { s.ran runner with
        starting := false
        replyRoutes := if s.starting then ∅ else s.replyRoutes }
    else none

/-- Whether the runner records a step with the messages that came with it. -/
def records (step : CompletedStep) : Bool :=
  decide (step.session = s.runner.sessionsPosted) && !s.runner.stepsFailed

def failsSteps (connId : ConnId) (requestId : ℕ) : Bool :=
  s.runner.sessionStart.steps.isSome && s.runner.failsRemainingSteps connId requestId &&
    s.runner.machine.state.isRunning

/-- The messages of a list are kept with a step of the present session, where the store takes it. -/
def keep (saved : Bool) (messages : List ℕ) : List Kept :=
  if storing && saved then
    messages.map fun code => { code, step := s.runner.sessionsPosted }
  else []

/-- The first report that hopped over is taken. -/
def hop (saved : Bool) : Option Outgoing :=
  match s.hops with
  | .step step messages :: hops =>
    (Runtime.next recording s.runner (.recordStep step saved)).map fun runner => { s.ran runner with
      hops
      kept := s.kept ++ if s.records step then s.keep storing saved messages else [] }
  | .failure connId requestId message captured :: hops =>
    (Runtime.next recording s.runner (.handlerFailed connId requestId message saved)).map
      fun runner =>
        if s.failsSteps connId requestId then { s.ran runner with
          hops
          stepMessages := []
          kept := s.kept ++ s.keep storing saved (captured ++ s.stepMessages) }
        else { s.ran runner with hops }
  | [] => none

def take : Option Outgoing :=
  match s.handling, s.queue with
  | none, item :: queue =>
    let sessionsStarted := match item with
      | .event (.sessionStarted ..) => s.sessionsStarted + 1
      | _ => s.sessionsStarted
    some { s with queue, sessionsStarted, handling := some sessionsStarted }
  | _, _ => none

def hand (code : ℕ) (connId : ConnId) (takes : Wire → Bool) : Outgoing :=
  match s.runner.connections.byId.lookup connId with
  | some conn =>
    if takes (wires conn) then { s with
      handed := s.handed ++ [{ code, connId, registered := s.registeredIn connId }] }
    else s
  | none => s

def replyRoute (connId : ConnId) : Option ℕ → ReplyRoute × AList fun _ : ConnId × ℕ => ReplyRoute
  | some requestId => ((s.replyRoutes.lookup (connId, requestId)).getD .protocol,
      s.replyRoutes.erase (connId, requestId))
  | none => (.protocol, s.replyRoutes)

/-- `_send_addressed`, less what notes a failure. -/
def sendAddressed (code : ℕ) (connId : ConnId) (requestId : Option ℕ) (reply : Reply) : Outgoing :=
  let route := s.replyRoute connId requestId
  if reply ≠ .message ∧ requestId = none then s
  else { s with replyRoutes := route.2 }.hand wires code connId fun wire => wire.takes route.1 reply

def onHandlerFailure (connId : ConnId) (requestId : ℕ) (message : String) : Outgoing :=
  if storing && s.runner.failsRemainingSteps connId requestId then { s with
    hops := s.hops ++ [.failure connId requestId message s.stepMessages]
    stepMessages := [] }
  else { s with hops := s.hops ++ [.failure connId requestId message []] }

def onStepCompleted (step : CompletedStep) : Outgoing :=
  if storing && decide (step.session = s.runner.sessionsPosted) then { s with
    hops := s.hops ++ [.step step s.stepMessages]
    stepMessages := [] }
  else { s with hops := s.hops ++ [.step step []] }

def STEP_MESSAGES_LIMIT : ℕ := 256

/-- The first part of `_broadcast_message`; the messages are bounded, and the oldest go first. -/
def keepMessage (code : ℕ) : Outgoing :=
  { s with
    broadcasting := some code
    stepMessages :=
      if storing then (s.stepMessages ++ [code]).rtake STEP_MESSAGES_LIMIT else s.stepMessages }

/-- The second part of `_broadcast_message`. -/
def broadcastAll (code : ℕ) : Outgoing :=
  { s with
    broadcasting := none
    handed := s.handed ++ s.runner.connections.byId.keys.map fun connId =>
      { code, connId, registered := s.registeredIn connId } }

/-- What happens next. -/
inductive Label where
  /-- The runner begins to start a session, and clears the messages kept for a step. -/
  | clears
  | runtime (l : Runtime.Label)
  /-- A command is submitted, with the route of its answer. -/
  | submit (connId : ConnId) (requestId : Option ℕ) (route : ReplyRoute)
  | hop (saved : Bool)
  | take
  | handled
  | beginStep
  | endStep
  /-- A reply of a handler, or a message through `ClientInfo.send`. -/
  | reply (code : Code) (connId : ConnId) (requestId : Option ℕ) (reply : Reply)
  /-- The refusal of a step request. -/
  | refuse (code : Code) (connId : ConnId)
  | broadcast (code : Code)
  | broadcasts
  | completeStep (step : CompletedStep)
  | noteFailure (connId : ConnId) (requestId : ℕ) (message : String)

/-- The next state; `storing` is whether results of steps are saved. -/
def next : Label → Option Outgoing
  | .clears =>
    if (s.runner.machine.send .startSession).isSome ∧ s.starting = false then
      some { s with starting := true, stepMessages := [] }
    else none
  | .runtime l => s.runtime recording l
  | .submit connId requestId route =>
    if s.starting then none
    else some { s with
      queue := s.queue ++ [.command connId requestId]
      replyRoutes := match requestId with
        | some requestId =>
          if route = .protocol then s.replyRoutes
          else s.replyRoutes.insert (connId, requestId) route
        | none => s.replyRoutes }
  | .hop saved => if s.starting then none else s.hop recording storing saved
  | .take => if s.broadcasting.isSome then none else s.take
  | .handled =>
    if s.broadcasting.isSome ∨ s.handling = none then none else some { s with handling := none }
  | .beginStep =>
    if s.broadcasting.isSome ∨ s.stepping.isSome then none
    else some { s with stepping := some s.sessionsStarted }
  | .endStep =>
    if s.broadcasting.isSome ∨ s.stepping = none then none else some { s with stepping := none }
  | .reply code connId requestId reply =>
    if s.broadcasting.isSome then none
    else (s.session code).map fun session => s.sendAddressed wires session connId requestId reply
  | .refuse code connId =>
    if s.broadcasting.isSome then none
    else (s.session code).map fun session =>
      s.hand wires session connId fun wire => decide (wire.version ≠ .v0)
  | .broadcast code =>
    if s.broadcasting.isSome then none
    else (s.session code).map fun session => s.keepMessage storing session
  | .broadcasts => s.broadcasting.map s.broadcastAll
  | .completeStep step =>
    if s.broadcasting.isSome then none else some (s.onStepCompleted storing step)
  | .noteFailure connId requestId message =>
    if s.broadcasting.isSome then none
    else some (s.onHandlerFailure storing connId requestId message)

end Outgoing

/-- The runner and the model's thread, from before the model is loaded. -/
def outgoing (recording storing : Bool) (wires : Connection → Wire) :
    TransitionSystem Outgoing Outgoing.Label where
  init := {}
  step s := s.next recording storing wires

attribute [local simp] Outgoing.next

end ReactorRuntime.Runtime
