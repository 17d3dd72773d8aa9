import ReactorRuntime.ModelServer.Core

/-!
# Opening, closing and resetting sessions

`_open`, `_leave`, `_forget`, `_reset`, `_refuse_while_stopping` and `_answer_in_flight` of
`model_server/server_core.py`, which run on the one thread that calls into the model.

Other threads run between any two of their critical sections, and while the model runs a hook.  So
each of them is cut into steps, and a `Frame` says where the thread is: one step is one locked
section, one call into the model or one post, with what the thread then does to the state of the
connection before the next of these.  A `Job` is what the thread has still to do once the frame is
done.

A step is `none` where the source raises `ConnectionMoveError`; `moves_allowed` of
`ModelServer/Equiv/Registry.lean` proves that this never happens.
-/

namespace ReactorRuntime.ModelServer

variable {Payload Output : Type*}

/-- How a call of one of the model's session hooks ended. -/
inductive HookReturn where
  | returned
  | raised (exc : Raised)
  deriving DecidableEq, Repr

/-- Something the thread that calls into the model still has to do. -/
inductive Job (Output : Type*) where
  /-- Post an answer (`_answer`). -/
  | answer (connection : ℕ) (message : ToSession Output)
  /-- Post an answer to a connection if it is still open (`_post_to`). -/
  | postTo (number : ℕ) (message : ToSession Output)
  /-- Apply a lifecycle event (`_apply`). -/
  | apply (event : Event)
  /-- Finish a lifecycle event while the server stops (`_refuse_while_stopping`). -/
  | refuse (event : Event)
  /-- Close a session (`_leave`, from `stop`). -/
  | leave (connection : ℕ)
  /-- Close a connection that was still opening (the end of `_answer_in_flight`). -/
  | closeOpening (connection : ℕ)

/-- Where the thread that calls into the model is.  `next` is the connection whose open goes on
once the one that held its slot is closed. -/
inductive Frame (Payload Output : Type*) where
  | idle
  /-- Post an answer. -/
  | answer (connection : ℕ) (message : ToSession Output)
  /-- `_leave`, from its start. -/
  | leave (connection : ℕ) (next : Option ℕ)
  /-- `_leave`, from where it reads the state. -/
  | leaveMove (connection : ℕ) (next : Option ℕ)
  /-- The locked section of `_forget`. -/
  | forget (connection : ℕ) (wasOpen : Bool) (next : Option ℕ)
  /-- In `session_closed()` for a session that leaves. -/
  | closeHook (connection : ℕ) (next : Option ℕ)
  /-- `_open`, with the slot free. -/
  | openNext (connection : ℕ)
  /-- In `session_opened()`. -/
  | openHook (connection : ℕ)
  /-- `_open`, after `session_opened()` raised. -/
  | openRefused (connection : ℕ) (exc : Raised) (serving : Bool)
  /-- In `session_closed()` for a session that opened while the server began to stop. -/
  | openClose (connection : ℕ)
  /-- The first locked section of `_reset`. -/
  | resetDrop (event : ResetEvent)
  /-- `_reset`, with answers to post, and then in `session_closed()`. -/
  | resetAnswers (event : ResetEvent) (dropped : List ℕ)
  /-- `_reset`, in `session_opened()`. -/
  | resetHook (event : ResetEvent)
  /-- `_reset`, with the refusal of the model to post. -/
  | resetReject (event : ResetEvent) (exc : Raised)
  /-- `_reset`, with the refused session to forget. -/
  | resetForget (event : ResetEvent)

namespace Core

def call (core : Core Payload Output) (hookCall : HookCall) : Core Payload Output :=
  { core with calls := core.calls ++ [hookCall] }

/-- Call `session_opened()` for a connection. -/
def sessionOpened (core : Core Payload Output) (c : ℕ) (hook : HookReturn) :
    Core Payload Output :=
  let k := core.conns c
  match hook with
  | .returned => core.call (.opened (k.slot.getD 0) k.generation)
  | .raised _ => core.call (.refused (k.slot.getD 0) k.generation)

/-- Call `session_closed()` for a connection; what it raises is logged. -/
def sessionClosed (core : Core Payload Output) (c : ℕ) : Core Payload Output :=
  let k := core.conns c
  core.call (.closed (k.slot.getD 0) k.generation)

def nextGeneration (core : Core Payload Output) (c : ℕ) : Core Payload Output :=
  let slot := (core.conns c).slot.getD 0
  { core.modify c fun k => { k with generation := core.generations slot + 1 } with
    generations := Function.update core.generations slot (core.generations slot + 1) }

/-- The locked section of `_forget`. -/
def forget (core : Core Payload Output) (c : ℕ) : Core Payload Output :=
  { (core.dropPending c).2 with
    policy := (core.policy.drop c).2
    resetPending := core.resetPending.erase c
    connections := core.connections.filter (· ≠ c)
    bySlot := fun slot =>
      if (core.conns c).slot = some slot ∧ core.bySlot slot = some c then none
      else core.bySlot slot }

def register (core : Core Payload Output) (c : ℕ) : Core Payload Output :=
  { core with
    connections := if c ∈ core.connections then core.connections else core.connections ++ [c]
    bySlot := Function.update core.bySlot ((core.conns c).slot.getD 0) (some c) }

/-- A connection is no longer among the opening ones. -/
def discardOpening (core : Core Payload Output) (c : ℕ) : Core Payload Output :=
  { core with opening := core.opening.erase c }

/-- The connection was left: its state is `closed`, and the link closes. -/
def closed (core : Core Payload Output) (c : ℕ) : Option (Core Payload Output) :=
  (core.move c .closed).map fun core => core.close c

/-- A connection that never opened is closed. -/
def closing (core : Core Payload Output) (c : ℕ) : Option (Core Payload Output) :=
  (core.move c .closing).map fun core => core.close c

end Core

/-- Where `_leave` returns to. -/
def Frame.after : Option ℕ → Frame Payload Output
  | none => .idle
  | some d => .openNext d

namespace Core

/-! ### Jobs -/

/-- Apply a lifecycle event, up to its first step (`_apply`). -/
def apply (core : Core Payload Output) : Event → Core Payload Output × Frame Payload Output
  | .enter c =>
    if (core.conns c).state ≠ .opening then (core.discardOpening c, .idle)
    else match core.bySlot ((core.conns c).slot.getD 0) with
      | some held => if held = c then (core, .openNext c) else (core, .leave held (some c))
      | none => (core, .openNext c)
  | .leave c => (core, .leave c none)
  | .reset event =>
    if (core.conns event.connection).state ≠ .opened then
      (core.resetAnswered event.connection, .idle)
    else (core, .resetDrop event)

/-- Finish a lifecycle event while the server stops, up to its first step
(`_refuse_while_stopping`). -/
def refuseWhileStopping (core : Core Payload Output) :
    Event → Core Payload Output × Frame Payload Output
  | .enter _ => (core, .idle)
  | .leave c => (core, .leave c none)
  | .reset event => (core.resetAnswered event.connection,
      .answer event.connection (failure event.requestId (.modelServerStopping STOPPING)))

def closeOpening (core : Core Payload Output) (c : ℕ) : Option (Core Payload Output) :=
  if (core.conns c).state = .connecting ∨ (core.conns c).state = .opening then core.closing c
  else some core

def start (core : Core Payload Output) :
    Job Output → Option (Core Payload Output × Frame Payload Output)
  | .answer c message => some (core.answer c message, .idle)
  | .postTo c message =>
    some (if c ∈ core.connections then core.answer c message else core, .idle)
  | .apply event => some (core.apply event)
  | .refuse event => some (core.refuseWhileStopping event)
  | .leave c => some (core, .leave c none)
  | .closeOpening c => (core.closeOpening c).map (·, .idle)

/-! ### Frames -/

/-- The step of `_leave` that reads the state, and moves a connection that is not closing yet. -/
def leaveMove (core : Core Payload Output) (c : ℕ) (next : Option ℕ) :
    Option (Core Payload Output × Frame Payload Output) :=
  if (core.conns c).state = .closing ∨ (core.conns c).state = .closed then
    some (core.close c, .after next)
  else (core.move c .closing).map fun moved =>
    (moved, .forget c ((core.conns c).state = .opened) next)

/-- `_open`, from the return of `session_opened()` to the next locked section. -/
def opened (cfg : Config) (core : Core Payload Output) (c : ℕ) :
    HookReturn → Option (Core Payload Output × Frame Payload Output)
  | .raised exc =>
    some ((core.sessionOpened c (.raised exc)).discardOpening c,
      .openRefused c exc (core.state = .serving))
  | .returned =>
    let core := (core.sessionOpened c .returned).discardOpening c
    if core.state = .serving then
      (core.move c .opened).map fun core => (core.register c, .answer c
        (.welcome ((core.conns c).slot.getD 0) (core.conns c).generation cfg.settings.maxBatch))
    else some (core, .openClose c)

/-- Tell a session that the model refused it, unless the server stops. -/
def offerRefusal (core : Core Payload Output) (c : ℕ) (exc : Raised) (serving : Bool) :
    Core Payload Output :=
  if serving then core.modify c fun k =>
    k.offer (.refused ("session_opened() refused it: " ++ exc.describe))
  else core

def openRefused (core : Core Payload Output) (c : ℕ) (exc : Raised) (serving : Bool) :
    Option (Core Payload Output) :=
  (core.offerRefusal c exc serving).closing c

def resetDrop (core : Core Payload Output) (c : ℕ) : List ℕ × Core Payload Output :=
  let (waiting, policy) := core.policy.drop c
  let (running, dropped) := core.dropPending c
  (waiting.map (·.requestId) ++
      (running.filter fun p => ¬ p.answered).map fun p => p.waiting.requestId,
    { dropped with policy })

/-- `_reset`, from the return of `session_opened()` to the end of the next locked section. -/
def resetOpened (core : Core Payload Output) (event : ResetEvent) :
    HookReturn → Option (Core Payload Output × Frame Payload Output)
  | .raised exc => some (((core.sessionOpened event.connection (.raised exc)).resetAnswered
      event.connection), .resetReject event exc)
  | .returned => ((core.sessionOpened event.connection .returned).move event.connection .opened).map
      fun core => (core.resetAnswered event.connection, .answer event.connection
        (.resetDone event.requestId (core.conns event.connection).generation))

/-- One step of the thread that calls into the model, from where it is. -/
def advance (cfg : Config) (core : Core Payload Output) (hook : HookReturn) :
    Frame Payload Output → Option (Core Payload Output × Frame Payload Output)
  | .idle => none
  | .answer c message => some (core.answer c message, .idle)
  | .leave c next => some (core.discardOpening c, .leaveMove c next)
  | .leaveMove c next => core.leaveMove c next
  | .forget c wasOpen next =>
    if wasOpen then some (core.forget c, .closeHook c next)
    else ((core.forget c).closed c).map (·, .after next)
  | .closeHook c next => ((core.sessionClosed c).closed c).map (·, .after next)
  | .openNext c => some (core.nextGeneration c, .openHook c)
  | .openHook c => core.opened cfg c hook
  | .openRefused c exc serving => (core.openRefused c exc serving).map (·, .idle)
  | .openClose c => ((core.sessionClosed c).closing c).map (·, .idle)
  | .resetDrop event =>
    let (ids, core) := core.resetDrop event.connection
    some (core, .resetAnswers event ids)
  | .resetAnswers event (requestId :: dropped) =>
    some (core.answer event.connection (failure requestId (.stepExpired "the session reset")),
      .resetAnswers event dropped)
  | .resetAnswers event [] =>
    let core := (core.sessionClosed event.connection).nextGeneration event.connection
    some (core.modify event.connection fun k => { k with sessionId := event.sessionId },
      .resetHook event)
  | .resetHook event => core.resetOpened event hook
  | .resetReject event exc =>
    some (core.answer event.connection (failure event.requestId (.modelServerRejected
      ("session_opened() refused the reset: " ++ exc.describe))), .resetForget event)
  | .resetForget event => (core.move event.connection .closing).map
      (·, .forget event.connection false none)

/-! ### Stopping -/

/-- The first locked section of `_answer_in_flight`, and the jobs it leaves. -/
def answerInFlight (core : Core Payload Output) : Core Payload Output × List (Job Output) :=
  let stopping requestId : ToSession Output := failure requestId (.modelServerStopping STOPPING)
  let dropped := core.connections.flatMap fun c => core.policy.waitingOf c
  let policy := core.connections.foldl (fun policy c => (policy.drop c).2) core.policy
  let held := (core.pending.filter fun p => ¬ p.detached).map fun p => p.waiting.connection
  ({ core with
      events := []
      policy := policy.finished held
      pending := []
      opening := ∅ },
    ((core.pending.filter Pending.awaited).map fun p =>
        .answer p.connection (stopping p.waiting.requestId)) ++
      core.events.map .refuse ++
      (dropped.map fun r => .answer r.connection (stopping r.requestId)) ++
      (core.opening.sort (· ≤ ·)).map .closeOpening)

end Core

end ReactorRuntime.ModelServer
