import ReactorRuntime.TransitionSystem.Basic
import ReactorRuntime.ModelServer.Lifecycle

/-!
# The threads of the model server

`server` is the transition system of a model server that was started: its step thread, the accept
thread, a reader and a writer thread for each connection, the threads that complete futures, and
the main thread that calls `drain()` and `stop()`.  A label says which thread takes its next step,
and what comes from outside at that step: the message a link delivers, how a call into the model
ended, what a send on the link did.

The main thread takes one call at a time, as the service makes them, and waits for the step thread
to end (`joining`) before it does anything else.  An idle main thread of a server that does not
serve any more is one whose last `drain()` or `stop()` returned.

The hooks of the model raise an `Exception` or return; what ends a thread from outside is not
modelled.
-/

namespace ReactorRuntime.ModelServer

/-! ### What the threads hold -/

/-- The thread that calls into the model: where it is, and what it has to do then. -/
structure Worker (Payload Output : Type*) where
  frame : Frame Payload Output
  jobs : List (Job Output)

inductive StepThread (Payload Output : Type*) where
  /-- At the top of its loop. -/
  | loop
  /-- Working off what the turn decided, with the batch to run then. -/
  | working (worker : Worker Payload Output) (batch : List (Waiting Payload))
  /-- In `_run`, with the requests of the batch whose sessions are open. -/
  | running (live batch : List (Waiting Payload))
  /-- In `step()`. -/
  | stepping (items : List (Pending Payload))
  | ended

inductive MainCall where
  | drain
  | stop
  deriving DecidableEq, Repr

inductive MainThread (Payload Output : Type*) where
  | idle
  /-- Waiting for the step thread to end. -/
  | joining (call : MainCall)
  /-- In `_answer_in_flight`. -/
  | answering (call : MainCall) (worker : Worker Payload Output)
  /-- Closing every session, at the end of `stop`. -/
  | leaving (worker : Worker Payload Output)

/-- A model server that was started. -/
structure Server (Payload Output : Type*) where
  core : Core Payload Output := {}
  step : StepThread Payload Output := .loop
  main : MainThread Payload Output := .idle

/-- A step of one of the threads. -/
inductive Label (Payload Output : Type*) where
  /-- Time passes. -/
  | tick (ticks : ℕ)
  | accept
  | hello (connection : ℕ) (hello : Hello)
  | helloExpired (connection : ℕ)
  | receive (connection : ℕ) (message : ToModelServer Payload)
  /-- The reader posts the refusal it holds. -/
  | reply (connection : ℕ)
  | hangUp (connection : ℕ)
  | write (connection : ℕ) (outcome : Connection.SendOutcome)
  | resolve (ticket : ℕ) (futureEnd : Core.FutureEnd Output)
  | stepThread (hook : HookReturn)
  | stepReturn (stepReturn : Core.StepReturn Output)
  | drain
  | stop
  | main (hook : HookReturn)

variable {Payload Output : Type*}

/-! ### The thread that calls into the model -/

/-- The worker's next step; `none` when it is done. -/
def Worker.step (cfg : Config) (core : Core Payload Output) (worker : Worker Payload Output)
    (hook : HookReturn) : Option (Core Payload Output × Worker Payload Output) :=
  match worker.frame, worker.jobs with
  | .idle, [] => none
  | .idle, job :: jobs => (core.start job).map fun p => (p.1, ⟨p.2, jobs⟩)
  | frame, jobs => (core.advance cfg hook frame).map fun p => (p.1, ⟨p.2, jobs⟩)

/-- Whether the worker has nothing left to do. -/
def Worker.done (worker : Worker Payload Output) : Bool :=
  match worker.frame, worker.jobs with
  | .idle, [] => true
  | _, _ => false

/-! ### The step thread -/

/-- The locked section at the top of the step thread's loop (`_step_until_drained`). -/
def Core.turn (cfg : Config) (core : Core Payload Output) :
    Core Payload Output × StepThread Payload Output :=
  let timedOut (p : Pending Payload) : Job Output := .answer p.connection
    (failure p.waiting.requestId (.stepExpired "the request's timeout passed while it ran"))
  match core.state with
  | .stopped => (core, .ended)
  | .draining deadline =>
    if deadline ≤ core.clock ∨ ¬ core.pending.any Pending.awaited then (core, .ended)
    else
      let (overdue, expired) := core.expireRunning
      if core.events = [] ∧ overdue = [] then (expired, .loop)
      else ({ expired with events := [] },
        .working ⟨.idle, overdue.map timedOut ++ core.events.map .refuse⟩ [])
  | .serving =>
    let (overdue, expired) := core.expireRunning
    if core.events ≠ [] then
      ({ expired with events := [] },
        .working ⟨.idle, overdue.map timedOut ++ core.events.map .apply⟩ [])
    else
      let (turn, policy) := core.policy.take cfg.settings core.clock core.openSessions
      let stepped := { expired with policy }
      if turn.batch = [] ∧ turn.expired = [] ∧ overdue = [] then (stepped, .loop)
      else (stepped, .working ⟨.idle, overdue.map timedOut ++ turn.expired.map fun r =>
        .postTo r.connection (failure r.requestId
          (.stepExpired "the request's timeout passed while it waited in the queue"))⟩ turn.batch)

def StepThread.step (cfg : Config) (core : Core Payload Output) (hook : HookReturn) :
    StepThread Payload Output → Option (Core Payload Output × StepThread Payload Output)
  | .loop => some (core.turn cfg)
  | .working worker batch =>
    if worker.done then
      if batch = [] then some (core, .loop)
      -- the first locked section of `_run`
      else some (core, .running (batch.filter fun r => r.connection ∈ core.connections) batch)
    else (worker.step cfg core hook).map fun p => (p.1, .working p.2 batch)
  | .running [] batch =>
    some ({ core with policy := core.policy.finished (batch.map Waiting.connection) }, .loop)
  | .running live _ =>
    let items := core.pendingFor live core.tickets
    some ({ core with
      pending := core.pending ++ items
      tickets := core.tickets + items.length }, .stepping items)
  | .stepping _ => none
  | .ended => none

/-! ### The main thread -/

/-- The beginning of `drain` and of `stop`, if the main thread is free. -/
def Server.call (s : Server Payload Output) (state : ServerState) (call : MainCall) :
    Option (Server Payload Output) :=
  match s.main with
  | .idle => some { s with core := { s.core with state }, main := .joining call }
  | _ => none

/-- A step of the main thread in `drain` or `stop`. -/
def Server.mainThread (cfg : Config) (s : Server Payload Output) (hook : HookReturn) :
    Option (Server Payload Output) :=
  match s.main with
  | .idle => none
  | .joining call =>
    match s.step with
    | .ended =>
      let (core, jobs) := s.core.answerInFlight
      some { s with core, main := .answering call ⟨.idle, jobs⟩ }
    | _ => none
  | .answering call worker =>
    if worker.done then
      match call with
      | .drain => some { s with main := .idle }
      | .stop => some { s with main := .leaving ⟨.idle, s.core.connections.map .leave⟩ }
    else (worker.step cfg s.core hook).map fun p => { s with core := p.1, main := .answering call p.2 }
  | .leaving worker =>
    if worker.done then some { s with main := .idle }
    else (worker.step cfg s.core hook).map fun p => { s with core := p.1, main := .leaving p.2 }

/-! ### The model server -/

/-- The step a label stands for; `none` where it cannot happen. -/
def Server.next (cfg : Config) (s : Server Payload Output) :
    Label Payload Output → Option (Server Payload Output)
  | .tick ticks => some { s with core := { s.core with clock := s.core.clock + ticks } }
  | .accept => some { s with core := s.core.accept cfg }
  | .hello c hello =>
    if (s.core.conns c).reader = .hello then some { s with core := s.core.hello cfg c hello }
    else none
  | .helloExpired c => some { s with core := s.core.helloExpired c }
  | .receive c message =>
    match (s.core.conns c).reader, (s.core.conns c).replies with
    | .active, [] => some { s with core := s.core.dispatch c message }
    | _, _ => none
  | .reply c => (s.core.reply c).map fun core => { s with core }
  | .hangUp c =>
    match (s.core.conns c).reader, (s.core.conns c).replies with
    | .absent, _ => none
    | .ended, _ => none
    | _, [] => some { s with core := s.core.hangUp c }
    | _, _ => none
  | .write c outcome =>
    ((s.core.conns c).write outcome).map fun k => { s with core := s.core.modify c fun _ => k }
  | .resolve ticket futureEnd =>
    match s.core.pendingOf ticket with
    | some item => if item.future then some { s with core := s.core.resolve ticket futureEnd }
        else none
    | none => some s
  | .stepThread hook => (s.step.step cfg s.core hook).map fun p =>
    { s with core := p.1, step := p.2 }
  | .stepReturn stepReturn =>
    match s.step with
    | .stepping items =>
      some { s with core := s.core.finishBatch items stepReturn, step := .loop }
    | _ => none
  | .drain =>
    s.call (match s.core.state with
      | .serving => .draining (s.core.clock + cfg.drainTimeout)
      | state => state) .drain
  | .stop => s.call .stopped .stop
  | .main hook => s.mainThread cfg hook

/-- The model server of a deployment with one session, which steps each request at once. -/
def Config.single : Config where
  settings := ⟨1, 0, by decide, by decide⟩
  maxSessions := 1
  drainTimeout := 0

/-- The start of a run in which a session opens on slot 0, with its welcome posted. -/
def openRun (Payload Output : Type*) : List (Label Payload Output) :=
  [.accept, .hello 1 ⟨0, PROTOCOL⟩] ++ List.replicate 6 (.stepThread .returned)

/-- A model server from its start. -/
def server (cfg : Config) : TransitionSystem (Server Payload Output) (Label Payload Output) where
  init := {}
  step := Server.next cfg

end ReactorRuntime.ModelServer
