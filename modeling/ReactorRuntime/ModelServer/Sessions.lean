import ReactorRuntime.ModelServer.Lifecycle

/-!
# The sessions of the model server, abstractly

A `Sessions` is what remains of the core when requests and answers are left out: the state, slot and
generation of each connection, where its reader is, the registry, and the calls of the model's
session hooks.  `Sessions.Heard`, `Sessions.Start` and `Sessions.Advance` are the steps of the
threads on it, and `ModelServer/Equiv/Sessions.lean` proves that the core refines them.

`Bracketed` is what the model is promised about the calls for one slot.
-/

namespace ReactorRuntime.ModelServer

/-- What the core holds about its sessions. -/
structure Sessions where
  server : ServerState
  state : ℕ → ConnectionState
  slot : ℕ → Option ℕ
  generation : ℕ → ℕ
  reader : ℕ → Reader
  connections : List ℕ
  bySlot : ℕ → Option ℕ
  generations : ℕ → ℕ
  numbers : ℕ
  calls : List HookCall

namespace Sessions

/-! ### The operations -/

def move (t : Sessions) (c : ℕ) (state : ConnectionState) : Sessions :=
  { t with state := Function.update t.state c state }

/-- The slot a connection serves, 0 before its hello. -/
def slotOf (t : Sessions) (c : ℕ) : ℕ := (t.slot c).getD 0

def call (t : Sessions) (hookCall : HookCall) : Sessions := { t with calls := t.calls ++ [hookCall] }

def sessionOpened (t : Sessions) (c : ℕ) : HookReturn → Sessions
  | .returned => t.call (.opened (t.slotOf c) (t.generation c))
  | .raised _ => t.call (.refused (t.slotOf c) (t.generation c))

def sessionClosed (t : Sessions) (c : ℕ) : Sessions :=
  t.call (.closed (t.slotOf c) (t.generation c))

def nextGeneration (t : Sessions) (c : ℕ) : Sessions :=
  { t with
    generation := Function.update t.generation c (t.generations (t.slotOf c) + 1)
    generations := Function.update t.generations (t.slotOf c) (t.generations (t.slotOf c) + 1) }

/-- A connection leaves the registry and its slot. -/
def forget (t : Sessions) (c : ℕ) : Sessions :=
  { t with
    connections := t.connections.filter (· ≠ c)
    bySlot := fun slot =>
      if t.slot c = some slot ∧ t.bySlot slot = some c then none else t.bySlot slot }

def register (t : Sessions) (c : ℕ) : Sessions :=
  { t with
    connections := if c ∈ t.connections then t.connections else t.connections ++ [c]
    bySlot := Function.update t.bySlot (t.slotOf c) (some c) }

/-- What the other threads do to the sessions. -/
inductive Heard : Sessions → Sessions → Prop
  | same (t : Sessions) : Heard t t
  | accept (t : Sessions) : Heard t
      { t with numbers := t.numbers + 1, reader := Function.update t.reader t.numbers .hello }
  | turnAway (t : Sessions) : Heard t { t with numbers := t.numbers + 1 }
  | refuse (t : Sessions) (c : ℕ) (greets : t.reader c = .hello) :
      Heard t { t with reader := Function.update t.reader c .leaving }
  | greet (t : Sessions) (c slot : ℕ) (greets : t.reader c = .hello) :
      Heard t { t with
        slot := Function.update t.slot c (some slot)
        reader := Function.update t.reader c .leaving }
  | enter (t : Sessions) (c slot : ℕ) (greets : t.reader c = .hello)
      (connecting : t.state c = .connecting) :
      Heard t { t with
        slot := Function.update t.slot c (some slot)
        state := Function.update t.state c .opening
        reader := Function.update t.reader c .active }
  | hangUp (t : Sessions) (c : ℕ) (started : t.reader c ≠ .absent) :
      Heard t { t with reader := Function.update t.reader c .ended }
  | stopping (t : Sessions) (server : ServerState) (stops : server ≠ .serving) :
      Heard t { t with server }

variable {Payload Output : Type*}

inductive Start : Sessions → Job Output → Sessions → Frame Payload Output → Prop
  | done (t : Sessions) (job : Job Output) (job_ne : ∀ c, job ≠ .leave c) : Start t job t .idle
  | leave (t : Sessions) (c : ℕ) : Start t (.leave c) t (.leave c none)
  | applyLeave (t : Sessions) (c : ℕ) : Start t (.apply (.leave c)) t (.leave c none)
  | refuseLeave (t : Sessions) (c : ℕ) : Start t (.refuse (.leave c)) t (.leave c none)
  | replace (t : Sessions) (c held : ℕ) (opening : t.state c = .opening)
      (holds : t.bySlot (t.slotOf c) = some held) (ne : held ≠ c) :
      Start t (.apply (.enter c)) t (.leave held (some c))
  | enter (t : Sessions) (c : ℕ) (opening : t.state c = .opening)
      (free : ∀ held, t.bySlot (t.slotOf c) = some held → held = c) :
      Start t (.apply (.enter c)) t (.openNext c)
  | reset (t : Sessions) (event : ResetEvent) (opened : t.state event.connection = .opened) :
      Start t (.apply (.reset event)) t (.resetDrop event)
  | refuseReset (t : Sessions) (event : ResetEvent) (message : ToSession Output) :
      Start t (.refuse (.reset event)) t (.answer event.connection message)
  | closeOpening (t : Sessions) (c : ℕ)
      (unopened : t.state c = .connecting ∨ t.state c = .opening) :
      Start t (.closeOpening c) (t.move c .closing) .idle

inductive Advance : Sessions → Frame Payload Output → Sessions → Frame Payload Output → Prop
  | answer (t : Sessions) (c : ℕ) (message : ToSession Output) :
      Advance t (.answer c message) t .idle
  | leave (t : Sessions) (c : ℕ) (next : Option ℕ) :
      Advance t (.leave c next) t (.leaveMove c next)
  | left (t : Sessions) (c : ℕ) (next : Option ℕ)
      (left : t.state c = .closing ∨ t.state c = .closed) :
      Advance t (.leaveMove c next) t (.after next)
  | leaveMove (t : Sessions) (c : ℕ) (next : Option ℕ) :
      Advance t (.leaveMove c next) (t.move c .closing) (.forget c (t.state c = .opened) next)
  | forgetOpen (t : Sessions) (c : ℕ) (next : Option ℕ) :
      Advance t (.forget c true next) (t.forget c) (.closeHook c next)
  | forget (t : Sessions) (c : ℕ) (next : Option ℕ) :
      Advance t (.forget c false next) ((t.forget c).move c .closed) (.after next)
  | closeHook (t : Sessions) (c : ℕ) (next : Option ℕ) :
      Advance t (.closeHook c next) ((t.sessionClosed c).move c .closed) (.after next)
  | openNext (t : Sessions) (c : ℕ) : Advance t (.openNext c) (t.nextGeneration c) (.openHook c)
  | opened (t : Sessions) (c : ℕ) (message : ToSession Output) (serving : t.server = .serving) :
      Advance t (.openHook c) (((t.sessionOpened c .returned).move c .opened).register c)
        (.answer c message)
  | openedLate (t : Sessions) (c : ℕ) :
      Advance t (.openHook c) (t.sessionOpened c .returned) (.openClose c)
  | openRaised (t : Sessions) (c : ℕ) (exc : Raised) (serving : Bool) :
      Advance t (.openHook c) (t.sessionOpened c (.raised exc)) (.openRefused c exc serving)
  | openRefused (t : Sessions) (c : ℕ) (exc : Raised) (serving : Bool) :
      Advance t (.openRefused c exc serving) (t.move c .closing) .idle
  | openClose (t : Sessions) (c : ℕ) :
      Advance t (.openClose c) ((t.sessionClosed c).move c .closing) .idle
  | resetDrop (t : Sessions) (event : ResetEvent) (dropped : List ℕ) :
      Advance t (.resetDrop event) t (.resetAnswers event dropped)
  | resetAnswer (t : Sessions) (event : ResetEvent) (requestId : ℕ) (dropped : List ℕ) :
      Advance t (.resetAnswers event (requestId :: dropped)) t (.resetAnswers event dropped)
  | resetClose (t : Sessions) (event : ResetEvent) :
      Advance t (.resetAnswers event [])
        ((t.sessionClosed event.connection).nextGeneration event.connection) (.resetHook event)
  | resetOpened (t : Sessions) (event : ResetEvent) (message : ToSession Output) :
      Advance t (.resetHook event)
        ((t.sessionOpened event.connection .returned).move event.connection .opened)
        (.answer event.connection message)
  | resetRaised (t : Sessions) (event : ResetEvent) (exc : Raised) :
      Advance t (.resetHook event) (t.sessionOpened event.connection (.raised exc))
        (.resetReject event exc)
  | resetReject (t : Sessions) (event : ResetEvent) (exc : Raised) :
      Advance t (.resetReject event exc) t (.resetForget event)
  | resetForget (t : Sessions) (event : ResetEvent) :
      Advance t (.resetForget event) (t.move event.connection .closing)
        (.forget event.connection false none)

end Sessions

def Core.sessions {Payload Output : Type*} (core : Core Payload Output) : Sessions where
  server := core.state
  state c := (core.conns c).state
  slot c := (core.conns c).slot
  generation c := (core.conns c).generation
  reader c := (core.conns c).reader
  connections := core.connections
  bySlot := core.bySlot
  generations := core.generations
  numbers := core.numbers
  calls := core.calls

/-! ### What the model is promised -/

def HookCall.slot : HookCall → ℕ
  | opened slot _ => slot
  | refused slot _ => slot
  | closed slot _ => slot

/-- The calls for one slot, `last` the last generation tried, and the generation that is open:
generations grow, and the next one is tried only once the open one is closed. -/
inductive Bracketed (slot : ℕ) : List HookCall → ℕ → Option ℕ → Prop
  | nil : Bracketed slot [] 0 none
  | opened {log : List HookCall} {last generation : ℕ} (before : Bracketed slot log last none)
      (grows : last < generation) :
      Bracketed slot (log ++ [.opened slot generation]) generation (some generation)
  | refused {log : List HookCall} {last generation : ℕ} (before : Bracketed slot log last none)
      (grows : last < generation) :
      Bracketed slot (log ++ [.refused slot generation]) generation none
  | closed {log : List HookCall} {last generation : ℕ}
      (before : Bracketed slot log last (some generation)) :
      Bracketed slot (log ++ [.closed slot generation]) last none

end ReactorRuntime.ModelServer
