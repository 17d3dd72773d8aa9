import ReactorRuntime.Interface.LiveGate
import ReactorRuntime.Protocol.MessageGateway
import ReactorRuntime.TransitionSystem.Basic

/-!
# The dispatcher of a `ReactorApp`

The inbound loop takes what was posted to the model one item at a time: commands, the requests for
steps and the events of the reactor.  Handlers and hooks run under the step lock, which the step
loop holds for each of its turns.  What a handler, a hook or a factory of the state does is in the
label, and so is whether the send of an answer raises: its message may be one that no codec carries,
or the wire may raise.

A step is one of the model's loop up to its next await, or one of the runtime's thread.  `posted`,
`dispatched`, `handled` and `answers` are the history.

Left out: the clients, what handlers and hooks send besides the answer, the input tracks, reports of
times, and commands that a transport received outside the protocol.
-/

namespace ReactorRuntime.Interface

open ReactorRuntime.Protocol (ProtocolVersion)

structure CommandEnvelope where
  command : String
  conn : Option String
  requestId : Option String
  stepRequestId : Option String := none
  deriving DecidableEq

structure StepEnvelope where
  conn : String
  requestId : String
  deriving DecidableEq

/-- What is posted to the model. -/
inductive Inbound where
  | command (envelope : CommandEnvelope)
  | step (request : StepEnvelope)
  | event (event : ReactorEvent)
  deriving DecidableEq

/-- What the dispatcher reads of a model's class. -/
structure AppClass where
  /-- The commands of its contract. -/
  commands : List String
  /-- Whether its contract has a hook for an event. -/
  hook : ReactorEvent → Bool
  /-- Whether it declares a state. -/
  state : Bool

/-- How a handler or a hook ends. -/
inductive Ending where
  /-- It returned, a `ModelMessage` or something else. -/
  | returned (message : Bool)
  | commandError
  | raised
  /-- `asyncio.CancelledError`, or another exception that is no `Exception`. -/
  | escaped
  deriving DecidableEq

inductive TurnEnding where
  | returned
  /-- `process_input` raised an `ApplicationError`; `raises`: so does the send of the refusal. -/
  | refused (raises : Bool)
  | raised
  /-- An exception that is no `Exception`. -/
  | escaped
  deriving DecidableEq

inductive Answer where
  | message
  | acknowledgement
  | failure
  deriving DecidableEq

inductive InboundStage where
  | idle
  /-- Waits for the step lock. -/
  | locking (item : Inbound)
  /-- In a handler or a hook, under the step lock. -/
  | handling (item : Inbound)
  /-- Waits until the step of a request is over. -/
  | awaiting
  /-- The task has ended. -/
  | over
  deriving DecidableEq

inductive RunStage where
  | waiting
  /-- In a turn, under the step lock, for a request or not. -/
  | turning (request : Option StepEnvelope)
  | over
  deriving DecidableEq

/-- The dispatcher, with the step loop and the connections that the runtime has registered. -/
structure Dispatcher where
  gate : LiveGate := {}
  queue : List Inbound := []
  inbound : InboundStage := .idle
  run : RunStage := .waiting
  failedStepCalls : List (String × String) := []
  pendingStep : Option StepEnvelope := none
  /-- Whether the step that the inbound loop waits for is over. -/
  stepDone : Bool := false
  connections : String → Option ProtocolVersion := fun _ => none
  /-- Whether `stop` was called, and the failure sink. -/
  stopped : Bool := false
  failed : Bool := false
  /-- History: what was posted, what was taken off the queue, how much of that was dispatched to the
  end, and the answers that were handed to a wire, with the position of their command. -/
  posted : List Inbound := []
  dispatched : List Inbound := []
  handled : ℕ := 0
  answers : List (ℕ × Answer) := []

namespace Dispatcher

variable (app : AppClass) (s : Dispatcher)

def enqueue (items : List Inbound) : Dispatcher :=
  { s with queue := s.queue ++ items, posted := s.posted ++ items }

/-- `ModelBridge.submit_step`: the calls of a request, then the request. -/
def stepItems (calls : List String) (request : StepEnvelope) : List Inbound :=
  calls.map (fun name => .command {
    command := name, conn := some request.conn, requestId := none
    stepRequestId := some request.requestId }) ++ [.step request]

def finish : Dispatcher := { s with inbound := .idle, handled := s.handled + 1 }

def CommandEnvelope.stepKey (envelope : CommandEnvelope) : Option (String × String) :=
  match envelope.conn, envelope.stepRequestId with
  | some conn, some step => some (conn, step)
  | _, _ => none

def dispatchCommand (envelope : CommandEnvelope) : Dispatcher :=
  match CommandEnvelope.stepKey envelope with
  | some key =>
    if key ∈ s.failedStepCalls ∨ s.gate.stepClosed.isSome then s.finish
    else { s with inbound := .locking (.command envelope) }
  | none => { s with inbound := .locking (.command envelope) }

/-- Whether a frame for a connection reaches its wire, where only v1 carries it. -/
def reachesV1 (conn : String) : Bool := s.connections conn = some .v1

def sendStepRefusal (conn : String) (raises : Bool) : Option Dispatcher :=
  if raises then if s.reachesV1 conn then some { s with inbound := .over } else none
  else some s.finish

def dispatchStep (request : StepEnvelope) (raises : Bool) : Option Dispatcher :=
  if (request.conn, request.requestId) ∈ s.failedStepCalls then
    { s with
      failedStepCalls := s.failedStepCalls.erase (request.conn, request.requestId)
      }.sendStepRefusal request.conn raises
  else if s.gate.stepClosed.isSome then s.sendStepRefusal request.conn raises
  else if raises then none
  else some { s with pendingStep := some request, stepDone := false, inbound := .awaiting }

/-- `_dispatch_reactor_event`, up to the step lock. -/
def dispatchReactorEvent (event : ReactorEvent) : Dispatcher :=
  let s := { s with gate := s.gate.dispatch event }
  match event with
  | .startingInputApplied => s.finish
  | .sessionStarted .. => { s with inbound := .locking (.event event) }
  | .sessionEnded => { s with failedStepCalls := [], inbound := .locking (.event event) }
  | .clientConnected .. | .clientDisconnected .. | .fileUploaded _ =>
    if app.hook event then { s with inbound := .locking (.event event) } else s.finish

def finishEvent (event : ReactorEvent) : Dispatcher :=
  match event with
  | .sessionEnded => { s with gate := s.gate.retire }.finish
  | _ => s.finish

def take (raises : Bool) : Option Dispatcher :=
  match s.inbound, s.queue with
  | .idle, item :: queue =>
    let s := { s with queue, dispatched := s.dispatched ++ [item] }
    match item with
    | .command envelope => if raises then none else some (s.dispatchCommand envelope)
    | .step request => s.dispatchStep request raises
    | .event event => if raises then none else some (s.dispatchReactorEvent app event)
  | _, _ => none

/-- The inbound loop gets the step lock.  `raises`: a factory of the state does. -/
def acquire (raises : Bool) : Option Dispatcher :=
  match s.inbound, s.run with
  | _, .turning _ => none
  | .locking (.command envelope), _ =>
    if raises then none
    else if envelope.command ∈ app.commands then
      some { s with inbound := .handling (.command envelope) }
    else some s.finish
  | .locking (.event event), _ =>
    if raises then
      match event with
      | .sessionStarted .. => if app.state then some { s with inbound := .over } else none
      | _ => none
    else if app.hook event then some { s with inbound := .handling (.event event) }
    else some (s.finishEvent event)
  | _, _ => none

/-- What `_run_command` sends as a handler has ended. -/
def answerTo (envelope : CommandEnvelope) : Ending → Option Answer
  | .returned true => if envelope.conn.isSome then some .message else none
  | .returned false =>
    if envelope.conn.isSome && envelope.requestId.isSome then some .acknowledgement else none
  | .commandError | .raised => if envelope.conn.isSome then some .failure else none
  | .escaped => none

/-- Whether `_send_addressed` hands an answer to a wire. -/
def reaches (envelope : CommandEnvelope) : Answer → Bool
  | .message => envelope.conn.any fun conn => (s.connections conn).isSome
  | .acknowledgement | .failure => envelope.requestId.isSome && envelope.conn.any s.reachesV1

/-- Whether the send of an answer can raise: a message is rendered before the connection is looked
up. -/
def mayRaise (envelope : CommandEnvelope) : Option Answer → Bool
  | some .message => true
  | some answer => s.reaches envelope answer
  | none => false

/-- `_fail`, what it keeps of the failed call of a step request. -/
def noteFailure (envelope : CommandEnvelope) (ending : Ending) : Dispatcher :=
  match ending, CommandEnvelope.stepKey envelope with
  | .commandError, some key | .raised, some key =>
    { s with failedStepCalls := s.failedStepCalls.insert key }
  | _, _ => s

/-- `_run_command`, from the end of the handler on. -/
def endCommand (envelope : CommandEnvelope) (ending : Ending) (raises : Bool) : Option Dispatcher :=
  let answer := answerTo envelope ending
  if ending = .escaped then if raises then none else some { s with inbound := .over }
  else if raises then
    if s.mayRaise envelope answer then
      some { s.noteFailure envelope ending with inbound := .over }
    else none
  else
    match answer with
    | some answer =>
      if s.reaches envelope answer then
        some { (s.noteFailure envelope ending).finish with
          answers := s.answers ++ [(s.dispatched.length - 1, answer)] }
      else some (s.noteFailure envelope ending).finish
    | none => some (s.noteFailure envelope ending).finish

/-- A handler or a hook ends.  `raises`: the send of the answer does. -/
def endHandler (ending : Ending) (raises : Bool) : Option Dispatcher :=
  match s.inbound with
  | .handling (.command envelope) => s.endCommand envelope ending raises
  | .handling (.event event) =>
    if raises then none
    else if ending = .escaped then some { s with inbound := .over }
    else some (s.finishEvent event)
  | _ => none

/-- The model's loop is over, and its tasks are cancelled. -/
def close (failed : Bool) : Dispatcher :=
  { s with inbound := .over, run := .over, failed := s.failed || failed }

def endTurn (ending : TurnEnding) : Option Dispatcher :=
  match s.run with
  | .turning request =>
    let waiting := { s with run := .waiting, stepDone := s.stepDone || request.isSome }
    match ending with
    | .returned => some { waiting with
        gate := if request.isSome then { s.gate with stepsAccepted := s.gate.stepsAccepted + 1 }
          else s.gate }
    | .refused raises =>
      if raises then
        if request.any fun request => s.reachesV1 request.conn then some (s.close true) else none
      else some waiting
    | .raised => some (s.close true)
    | .escaped => some (s.close false)
  | _ => none

/-- What happens next. -/
inductive Label where
  | submitCommand (name : String) (conn requestId : Option String)
  | submitStep (calls : List String) (request : StepEnvelope)
  | post (event : ReactorEvent)
  | register (conn : String) (version : ProtocolVersion)
  | unregister (conn : String)
  | take (raises : Bool)
  | acquire (raises : Bool)
  | endHandler (ending : Ending) (raises : Bool)
  /-- The inbound loop goes on after a step. -/
  | resume
  /-- The step loop begins a turn, for the session or for a request. -/
  | beginTurn
  | beginStep
  | endTurn (ending : TurnEnding)
  /-- The step loop raises between two turns. -/
  | runRaises (escaped : Bool)
  | crash
  | stop
  deriving DecidableEq

/-- Whether the inbound loop holds the step lock. -/
def isHandling : Bool :=
  match s.inbound with
  | .handling _ => true
  | _ => false

def next : Label → Option Dispatcher
  | .submitCommand name conn requestId =>
    if s.run ≠ .over ∧ name ∈ app.commands then
      some (s.enqueue [.command { command := name, conn, requestId }])
    else none
  | .submitStep calls request =>
    if s.run ≠ .over ∧ ∀ name ∈ calls, name ∈ app.commands then
      some (s.enqueue (stepItems calls request))
    else none
  | .post event => if s.run ≠ .over then some (s.enqueue [.event event]) else none
  | .register conn version =>
    some { s with connections := Function.update s.connections conn (some version) }
  | .unregister conn => some { s with connections := Function.update s.connections conn none }
  | .take raises => s.take app raises
  | .acquire raises => s.acquire app raises
  | .endHandler ending raises => s.endHandler ending raises
  | .resume => if s.inbound = .awaiting ∧ s.stepDone then some s.finish else none
  | .beginTurn =>
    if s.run = .waiting ∧ s.gate.live ∧ !s.isHandling then some { s with run := .turning none }
    else none
  | .beginStep =>
    if s.run = .waiting ∧ s.pendingStep.isSome ∧ !s.isHandling then
      some { s with run := .turning s.pendingStep, pendingStep := none }
    else none
  | .endTurn ending => s.endTurn ending
  | .runRaises escaped => if s.run = .waiting then some (s.close !escaped) else none
  | .crash => if s.run ≠ .over then some (s.close true) else none
  | .stop => if s.run ≠ .over then some { s.close false with stopped := true } else none

end Dispatcher

/-- The dispatcher of a model, from the start of its thread. -/
def dispatcher (app : AppClass) : TransitionSystem Dispatcher Dispatcher.Label where
  init := {}
  step s := s.next app

attribute [local simp] Dispatcher.next

end ReactorRuntime.Interface
