import Mathlib.Data.Finset.Sort
import ReactorRuntime.ModelServer.Connection

/-!
# The core of the model server

What `ModelServerCore` of `model_server/server_core.py` holds, and its critical sections: the ones
the reader threads run for a message (`hello`, `take`, `cancelRequest`, `takeReset`), the ones that
finish requests (`complete`, `finishBatch`, `expireRunning`), and the one that decides what the step
thread does next (`turn`).  The calls into the model and the threads are in
`ModelServer/Lifecycle.lean` and `ModelServer/Threads.lean`.

A connection is known by its number, and `conns` holds every connection that ever was: one whose
number was not given out yet is a fresh `Connection`.  `_drain_deadline` is part of the state
`draining`, which is the only one it is read in.  What only `health()` reads (`_call`, `_broken`,
`since`) is left out.

`calls` is not in the source.  It records the calls of the model's two session hooks, in order.
-/

namespace ReactorRuntime.ModelServer

/-! ### What the core holds -/

/-- Where the model server is in its life. -/
inductive ServerState where
  | serving
  | draining (deadline : Time)
  | stopped
  deriving DecidableEq, Repr

/-- A reset that waits for the step thread (`_Reset`). -/
structure ResetEvent where
  connection : ℕ
  requestId : ℕ
  sessionId : Option String

/-- A lifecycle event that waits for the step thread (`_Open`, `_Leave`, `_Reset`). -/
inductive Event where
  | enter (connection : ℕ)
  | leave (connection : ℕ)
  | reset (event : ResetEvent)

/-- A request handed to `step()` that has no answer from the model yet. -/
structure Pending (Payload : Type*) where
  ticket : ℕ
  request : ServerRequest Payload
  waiting : Waiting Payload
  connection : ℕ
  /-- Whether `step()` returned a future for it. -/
  future : Bool := false
  /-- Its session already got an answer, or gave up on it. -/
  answered : Bool := false
  /-- Its session reset or left. -/
  detached : Bool := false

/-- Whether a session still waits for this request's answer. -/
def Pending.awaited {Payload : Type*} (item : Pending Payload) : Bool :=
  !item.answered && !item.detached

/-- The request with its answer given, if `p` says so. -/
def Pending.answerIf {Payload : Type*} (p : Pending Payload → Bool) (item : Pending Payload) :
    Pending Payload :=
  if p item then { item with answered := true } else item

/-- The request with its future there, if it is the one behind the ticket. -/
def Pending.awaitFor {Payload : Type*} (ticket : ℕ) (item : Pending Payload) : Pending Payload :=
  if item.ticket = ticket then { item with future := true } else item

/-- The request with its session no longer held for it, if it is one of the connection. -/
def Pending.detachFrom {Payload : Type*} (connection : ℕ) (item : Pending Payload) :
    Pending Payload :=
  if item.connection = connection then { item with detached := true } else item

/-- A call of `session_opened()` that returned or raised, or of `session_closed()`. -/
inductive HookCall where
  | opened (slot generation : ℕ)
  | refused (slot generation : ℕ)
  | closed (slot generation : ℕ)
  deriving DecidableEq, Repr

structure Config where
  settings : ServerSettings
  maxSessions : ℕ
  drainTimeout : Time

/-- What the model server holds, shared by its threads. -/
structure Core (Payload Output : Type*) where
  state : ServerState := .serving
  policy : BatchPolicy Payload := .empty
  events : List Event := []
  conns : ℕ → Connection Payload Output := fun _ => {}
  /-- The numbers of the open sessions' connections. -/
  connections : List ℕ := []
  bySlot : ℕ → Option ℕ := fun _ => none
  opening : Finset ℕ := ∅
  resetPending : Finset ℕ := ∅
  generations : ℕ → ℕ := fun _ => 0
  numbers : ℕ := 1
  pending : List (Pending Payload) := []
  tickets : ℕ := 1
  clock : Time := 0
  calls : List HookCall := []

variable {Payload Output : Type*}

/-- The text of the failures a stopping server answers with. -/
def STOPPING : String := "model_server_lost: the model server is stopping"

namespace Core

/-! ### Connections -/

def modify (core : Core Payload Output) (c : ℕ)
    (f : Connection Payload Output → Connection Payload Output) : Core Payload Output :=
  { core with conns := Function.update core.conns c (f (core.conns c)) }

def setState (core : Core Payload Output) (c : ℕ) (state : ConnectionState) :
    Core Payload Output :=
  core.modify c fun k => { k with state }

/-- Move one connection; `none` where the source raises `ConnectionMoveError`. -/
def move (core : Core Payload Output) (c : ℕ) (state : ConnectionState) :
    Option (Core Payload Output) :=
  ((core.conns c).move state).map fun moved => core.modify c fun _ => moved

/-- Post an answer on one connection (`_answer`). -/
def answer (core : Core Payload Output) (c : ℕ) (message : ToSession Output)
    (producer : Option (ServerRequest Payload) := none) : Core Payload Output :=
  core.modify c fun k => k.answer message producer

def close (core : Core Payload Output) (c : ℕ) : Core Payload Output :=
  core.modify c Connection.close

/-- Take one link from the listener (`_accept_loop`): its reader starts, or, with the server
stopping or too many connections opening, it is closed at once. -/
def accept (cfg : Config) (core : Core Payload Output) : Core Payload Output :=
  let c := core.numbers
  let core := { core with numbers := c + 1 }
  if core.state = .serving ∧ core.opening.card < cfg.maxSessions then
    { core.modify c fun k => { k with reader := .hello } with opening := insert c core.opening }
  else core.close c

/-! ### Messages of the sessions -/

/-- Queue a lifecycle event for the step thread. -/
def queue (core : Core Payload Output) (event : Event) : Core Payload Output :=
  { core with events := core.events ++ [event] }

def hello (cfg : Config) (core : Core Payload Output) (c : ℕ) (hello : Hello) :
    Core Payload Output :=
  let refuse (reason : String) := core.modify c fun k =>
    { k.offer (.refused reason) with reader := .leaving }
  match checkHello hello with
  | some reason => refuse reason
  | none =>
    if ¬ (0 ≤ hello.slot ∧ hello.slot < cfg.maxSessions) then
      refuse ("slot " ++ toString hello.slot ++ " is out of range: this model server serves " ++
        "slots 0 to " ++ toString ((cfg.maxSessions : ℤ) - 1))
    else
      let greeted := { core.conns c with slot := some hello.slot.toNat }
      if core.state = .serving then
        match greeted.move .opening with
        | some opening => (core.queue (.enter c)).modify c fun _ => { opening with reader := .active }
        | none => core.modify c fun _ => { greeted with reader := .leaving }
      else core.modify c fun _ => { greeted.close with reader := .leaving }

def helloExpired (core : Core Payload Output) (c : ℕ) : Core Payload Output :=
  if (core.conns c).state = .connecting then core.modify c fun k => { k with linkClosed := true }
  else core

/-- The request a step asks for, as it waits from `now` on. -/
def waitingFor (core : Core Payload Output) (c : ℕ) (step : Step Payload) : Waiting Payload where
  connection := c
  requestId := step.requestId
  payload := step.payload
  arrived := core.clock
  deadline := step.timeout.map fun timeout => core.clock + timeout

/-- Queue a step, or say why it is refused (the locked part of `_take`). -/
def admitStep (core : Core Payload Output) (c : ℕ) (step : Step Payload) :
    Except Fault (BatchPolicy Payload) :=
  if core.state ≠ .serving then .error (.modelServerStopping STOPPING)
  else if (core.conns c).state ≠ .opened then
    .error (.modelServerRejected "the session is not open")
  else if c ∈ core.resetPending then
    .error (.resetRequired "a reset is still pending: wait for ResetDone before stepping")
  else match core.policy.add (core.waitingFor c step) with
    | none => .error (.stepStillRunning
        "the session's previous request is still waiting or running: retry once it ends")
    | some policy => .ok policy

/-- A step of a session (`_take`); its refusal is posted once the lock is released. -/
def take (core : Core Payload Output) (c : ℕ) (step : Step Payload) : Core Payload Output :=
  match core.admitStep c step with
  | .error refusal => core.modify c fun k => { k with
      replies := k.replies ++ [failure step.requestId refusal]
      history := { k.history with received := k.history.received ++ [step.requestId] } }
  | .ok policy => { core.modify c fun k => { k with
      history := { k.history with
        received := k.history.received ++ [step.requestId]
        accepted := k.history.accepted ++ [step.requestId] } } with policy }

def cancels (c requestId : ℕ) (item : Pending Payload) : Bool :=
  item.connection = c ∧ item.waiting.requestId = requestId ∧ item.future ∧ item.awaited

/-- Record that a cancel withdrew steps. -/
def withdraw (core : Core Payload Output) (c : ℕ) (ids : List ℕ) : Core Payload Output :=
  core.modify c fun k =>
    { k with history := { k.history with withdrawn := k.history.withdrawn ++ ids } }

/-- Withdraw a waiting request, or stop answering a running one (`_cancel_request`). -/
def cancelRequest (core : Core Payload Output) (c requestId : ℕ) : Core Payload Output :=
  match core.policy.cancel c requestId with
  | some policy => { core.withdraw c [requestId] with policy }
  | none =>
    let running := core.pending.filter (cancels c requestId)
    { core.withdraw c (running.map fun item => item.waiting.requestId) with
      pending := core.pending.map (Pending.answerIf (cancels c requestId)) }

def takeReset (core : Core Payload Output) (event : ResetEvent) : Core Payload Output :=
  let received (k : Connection Payload Output) : Connection Payload Output := { k with
    history := { k.history with
      received := k.history.received ++ [event.requestId]
      resets := k.history.resets ++ [event.requestId] } }
  if core.state = .serving then
    { (core.queue (.reset event)).modify event.connection received with
      resetPending := insert event.connection core.resetPending }
  else core.modify event.connection fun k => { received k with
    replies := k.replies ++ [failure event.requestId (.modelServerStopping STOPPING)] }

/-- The pending mark of a session's resets is cleared (`_reset_answered`). -/
def resetAnswered (core : Core Payload Output) (c : ℕ) : Core Payload Output :=
  { core with resetPending := core.resetPending.erase c }

/-- A message of a session after its hello (`_dispatch`).  `signal()` has no effect here. -/
def dispatch (core : Core Payload Output) (c : ℕ) :
    ToModelServer Payload → Core Payload Output
  | .step step => core.take c step
  | .cancel requestId => core.cancelRequest c requestId
  | .signal _ => core
  | .reset requestId sessionId => core.takeReset ⟨c, requestId, sessionId⟩

/-- Post what the reader still has to post. -/
def reply (core : Core Payload Output) (c : ℕ) : Option (Core Payload Output) :=
  match (core.conns c).replies with
  | [] => none
  | message :: replies => some ((core.modify c fun k => { k with replies }).answer c message)

def hangUp (core : Core Payload Output) (c : ℕ) : Core Payload Output :=
  (core.queue (.leave c)).modify c fun k => { k with reader := .ended }

/-! ### Finishing requests -/

def pendingOf (core : Core Payload Output) (ticket : ℕ) : Option (Pending Payload) :=
  core.pending.find? fun item => item.ticket = ticket

/-- Whether a finished request's session still waits for it, in the same generation. -/
def answers (core : Core Payload Output) (item : Pending Payload) : Prop :=
  item.awaited ∧ (core.conns item.connection).state = .opened ∧
    (core.conns item.connection).generation = item.request.generation ∧
    item.connection ∈ core.connections

instance (core : Core Payload Output) (item : Pending Payload) : Decidable (core.answers item) :=
  inferInstanceAs (Decidable (_ ∧ _))

/-- Finish a pending request (`_complete`). -/
def complete (core : Core Payload Output) (item : Pending Payload) (output : Outcome Output) :
    Core Payload Output :=
  let core := { core with pending := core.pending.filter fun p => p.ticket ≠ item.ticket }
  let core := if core.answers item then
      core.answer item.connection (output.answer item.waiting.requestId) (some item.request)
    else core
  if item.detached then core
  else { core with policy := core.policy.finished [item.connection] }

/-- Finish the request behind a ticket, if it is still pending. -/
def completeTicket (core : Core Payload Output) (ticket : ℕ) (output : Outcome Output) :
    Core Payload Output :=
  match core.pendingOf ticket with
  | none => core
  | some item => core.complete item output

inductive FutureEnd (Output : Type*) where
  | cancelled
  | result (outcome : Outcome Output)

/-- Finish a request from its done future (`_resolve`). -/
def resolve (core : Core Payload Output) (ticket : ℕ) (futureEnd : FutureEnd Output) :
    Core Payload Output :=
  core.completeTicket ticket <| match futureEnd with
    | .cancelled => .error (.stepExpired "the request was cancelled")
    | .result outcome => outcome

/-- What `step()` returned for one request: its outcome, or a future. -/
inductive StepOutput (Output : Type*) where
  | done (outcome : Outcome Output)
  | future

/-- How a call of `step()` ended. -/
inductive StepReturn (Output : Type*) where
  | raised (exc : Raised)
  | outputs (outputs : List (StepOutput Output))
  /-- What it returned is no sequence. -/
  | notSequence (typeName : String)

def failBatch (core : Core Payload Output) (items : List (Pending Payload)) (exc : Fault) :
    Core Payload Output :=
  items.foldl (fun core item => core.completeTicket item.ticket (.error (.batchFailed exc))) core

/-- `step()` returned a future for the request behind a ticket. -/
def awaitFuture (core : Core Payload Output) (ticket : ℕ) : Core Payload Output :=
  { core with pending := core.pending.map (Pending.awaitFor ticket) }

/-- One request of a batch and what `step()` returned for it. -/
def finishOne (core : Core Payload Output) (ticket : ℕ) :
    StepOutput Output → Core Payload Output
  | .done outcome => core.completeTicket ticket outcome
  | .future => core.awaitFuture ticket

/-- Finish a batch from what `step()` returned (the second half of `_run`). -/
def finishBatch (core : Core Payload Output) (items : List (Pending Payload)) :
    StepReturn Output → Core Payload Output
  | .raised exc => core.failBatch items (.model exc)
  | .notSequence typeName => core.failBatch items (.runtimeError
      ("step() returned " ++ typeName ++ " outputs for " ++ toString items.length ++ " requests"))
  | .outputs outputs =>
    if outputs.length = items.length then
      (items.zip outputs).foldl (fun core p => core.finishOne p.1.ticket p.2) core
    else core.failBatch items (.runtimeError ("step() returned " ++ toString outputs.length ++
      " outputs for " ++ toString items.length ++ " requests"))

/-- Detach a session's running requests (`_drop_pending`): the ones that have a future, as they
are then, and the core. -/
def dropPending (core : Core Payload Output) (c : ℕ) :
    List (Pending Payload) × Core Payload Output :=
  ((core.pending.filter fun p => p.connection = c ∧ ¬ p.detached ∧ p.future).map
      (Pending.detachFrom c),
    { core with pending := core.pending.map (Pending.detachFrom c) })

/-! ### The step thread's critical sections -/

/-- Whether a running request's timeout passed with its session still waiting. -/
def overdueAt (now : Time) (item : Pending Payload) : Bool :=
  item.future && item.awaited && item.waiting.overdue now

/-- Mark running requests whose timeout passed as answered (`_expire_running`). -/
def expireRunning (core : Core Payload Output) : List (Pending Payload) × Core Payload Output :=
  (core.pending.filter (overdueAt core.clock),
    { core with pending := core.pending.map (Pending.answerIf (overdueAt core.clock)) })

def openSessions (core : Core Payload Output) : ℕ :=
  core.connections.countP fun c => (core.conns c).state = .opened

/-- Register the requests of a batch as pending, with new tickets and their sessions' slots and
generations. -/
def pendingFor (core : Core Payload Output) : List (Waiting Payload) → ℕ → List (Pending Payload)
  | [], _ => []
  | request :: live, ticket =>
    let k := core.conns request.connection
    { ticket, waiting := request, connection := request.connection
      request := ⟨k.slot.getD 0, k.generation, request.payload, k.sessionId⟩ } ::
      core.pendingFor live (ticket + 1)

/-! ### What an operation leaves as it is -/

variable (core : Core Payload Output)

theorem conns_modify (c d : ℕ) (f : Connection Payload Output → Connection Payload Output) :
    (core.modify c f).conns d = if d = c then f (core.conns c) else core.conns d :=
  Function.update_apply ..

theorem answer_modify (c : ℕ) (f : Connection Payload Output → Connection Payload Output)
    (message : ToSession Output) : (core.modify c f).answer c message =
      core.modify c fun k => (f k).answer message := by
  simp [answer, modify]

theorem move_eq_some {core : Core Payload Output} {c : ℕ} {state : ConnectionState}
    {moved : Core Payload Output} :
    core.move c state = some moved ↔ state ∈ (core.conns c).state.moves ∧
      moved = core.setState c state := by
  simp only [move, Option.map_eq_some_iff, Connection.move_eq_some]
  constructor
  · rintro ⟨_, ⟨hmoves, rfl⟩, rfl⟩
    exact ⟨hmoves, rfl⟩
  · rintro ⟨hmoves, rfl⟩
    exact ⟨_, ⟨hmoves, rfl⟩, rfl⟩

theorem complete_eq (item : Pending Payload) (output : Outcome Output) :
    core.complete item output =
      { (if core.answers item then
          core.answer item.connection (output.answer item.waiting.requestId) (some item.request)
        else core) with
        pending := core.pending.filter fun p => p.ticket ≠ item.ticket
        policy := if item.detached then core.policy
          else core.policy.finished [item.connection] } := by
  unfold complete
  by_cases ha : core.answers item
  · have ha' : ({ core with pending := core.pending.filter fun p => p.ticket ≠ item.ticket } :
        Core Payload Output).answers item := ha
    simp only [if_pos ha, if_pos ha']
    split_ifs <;> rfl
  · have ha' : ¬ ({ core with pending := core.pending.filter fun p => p.ticket ≠ item.ticket } :
        Core Payload Output).answers item := ha
    simp only [if_neg ha, if_neg ha']
    split_ifs <;> rfl

theorem conns_complete (item : Pending Payload) (output : Outcome Output) :
    (core.complete item output).conns =
      if core.answers item then (core.answer item.connection
        (output.answer item.waiting.requestId) (some item.request)).conns
      else core.conns := by
  rw [complete_eq]
  split_ifs <;> rfl

end Core

end ReactorRuntime.ModelServer
