import ReactorRuntime.Lists.Dict
import ReactorRuntime.ModelServer.Protocol
import ReactorRuntime.TransitionSystem.Basic

/-!
# The model server's client

`ModelClient` of `model_server/client.py`: the calls that any number of threads make on it, numbered
in the order in which they are made, and its reader.  A step is one section under `_cond`, one send
or receive of the link, one call of `on_lost`, or what the holder of `_call_lock` does with the
fields that nobody else writes.

The link is what the labels say it is.  It delivers any message at any time; a send is done, raises
`Closed` or an `OSError`, or raises what the encoding of the message raised; its `close` returns.  A
call that waits on `_cond` may look again at any time, and reads the clock where it looks.  What
the model server is asked for when `session_id` is omitted is part of the call.

`on_lost` is given; what it raises is logged.
-/

namespace ReactorRuntime.ModelServer.Client

open Lists

inductive LinkState where
  | opened
  | lost
  | closed
  deriving DecidableEq, Repr

/-- What every call raises once the link is lost or closed: a `ModelServerLost` or a `ClientClosed`,
with its message. -/
inductive Ended where
  | modelServerLost (message : String)
  | clientClosed (message : String)
  deriving DecidableEq, Repr

/-- What `close` makes the calls raise. -/
def Ended.closed : Ended := .clientClosed "the model client is closed"

/-- What a call raises. -/
inductive Exc where
  | valueError (timeout : Time)
  | resetRequired
  | stepTimedOut (wait : Option Time)
  | ended (ended : Ended)
  /-- What a send of the link raised because it could not encode the message. -/
  | unencoded (text : String)
  /-- The exception of an answer. -/
  | failed (error : Fault)
  /-- What `error_of` raises for an answer that is no failure. -/
  | attributeError
  deriving DecidableEq

/-- What a call returns. -/
inductive Value (Output : Type) where
  | output (output : Output)
  | generation (generation : ℕ)
  | nothing
  deriving DecidableEq

abbrev Result (Output : Type) := Except Exc (Value Output)

/-- A call. -/
inductive Request (Payload : Type) where
  | step (request : Payload) (timeout : Option Time)
  | reset (sessionId : Option String) (timeout : Option Time)
  | signal (signal : Payload)
  | close
  deriving DecidableEq

/-- Whether a call takes `_call_lock`. -/
def Request.isExchange {Payload : Type} : Request Payload → Bool
  | step _ _ => true
  | reset _ _ => true
  | signal _ => false
  | close => false

/-- What a send of the link does. -/
inductive Sent where
  | sent
  /-- It raises `Closed` or an `OSError`. -/
  | gone (text : String)
  | unencoded (text : String)
  deriving DecidableEq, Repr

/-- Where a thread is in `_lose`. -/
inductive Losing where
  | begun (reason : String)
  | closing (message : String)
  | telling (message : String)
  deriving DecidableEq, Repr

/-- How far a call is. -/
inductive Progress (Payload Output : Type) where
  | begun
  | locking
  /-- In `_usable`, before it sends anything. -/
  | usable
  | opening
  | entering (message : ToModelServer Payload)
  | sending (message : ToModelServer Payload)
  | losing (message : ToModelServer Payload) (losing : Losing)
  /-- In `_usable`, after `_lose`. -/
  | checking (message : ToModelServer Payload)
  | waiting
  /-- In the `finally` of `_call`. -/
  | cleaning (outcome : Except Exc (Option (ToSession Output)))
  | concluding (answer : Option (ToSession Output))
  /-- About to release `_call_lock`. -/
  | leaving (result : Result Output)
  | closing
  | ended (result : Result Output)

/-- A call, with its local variables. -/
structure Call (Payload Output : Type) where
  request : Request Payload
  progress : Progress Payload Output := .begun
  wait : Option Time := none
  requestId : Option ℕ := none
  deadline : Option Time := none

inductive Reader (Output : Type) where
  | receiving
  | matching (message : ToSession Output)
  | failed (text : String)
  | losing (losing : Losing)
  | ended

/-- The client and its threads. -/
structure State (Payload Output : Type) where
  state : LinkState := .opened
  ended : Option Ended := none
  resetRequired : Bool := true
  /-- The next request id. -/
  ids : ℕ := 1
  replies : List (ℕ × ToSession Output) := []
  waiting : Option ℕ := none
  generation : ℕ
  callLock : Option ℕ := none
  calls : List (Call Payload Output) := []
  reader : Reader Output := .receiving
  clock : Time := 0
  /-- History: the messages that were received. -/
  received : List (ToSession Output) := []
  /-- History: the sends of each call. -/
  sends : List (ℕ × ToModelServer Payload × Sent) := []
  /-- History: the messages with which the link was lost. -/
  losses : List String := []
  /-- History: the messages of the exceptions `on_lost` was called with. -/
  told : List String := []
  /-- History: the resets that took the lock. -/
  attempts : List ℕ := []
  /-- History: the resets that returned, with the generations they returned. -/
  returned : List (ℕ × ℕ) := []

/-- What `LinkConfig` and the `Welcome` say. -/
structure Config where
  stepTimeout : Option Time
  generation : ℕ

variable {Payload Output : Type}

def wait (config : Config) : Option Time → Except Exc (Option Time)
  | none => .ok config.stepTimeout
  | some timeout =>
    if timeout < 0 then .error (.valueError timeout)
    else .ok (if timeout = 0 then none else some timeout)

/-- A step of `_lose`: what it does, and where the thread is then, if it is still in `_lose`. -/
def lose (s : State Payload Output) : Losing → State Payload Output × Option Losing
  | .begun reason =>
    if s.state ≠ .opened then (s, none)
    else
      let message := "model_server_lost: " ++ reason
      ({ s with
          state := .lost, ended := some (.modelServerLost message)
          losses := s.losses ++ [message] },
        some (.closing message))
  | .closing message => (s, some (.telling message))
  | .telling message => ({ s with told := s.told ++ [message] }, none)

namespace Call

variable (c : Call Payload Output)

/-- A call that raises outside of `_call`: one that holds the lock has to release it. -/
def raise (exc : Exc) : Call Payload Output :=
  if c.request.isExchange then { c with progress := .leaving (.error exc) }
  else { c with progress := .ended (.error exc) }

/-- The call after `_send` of a message returned. -/
def afterSend (clock : Time) : ToModelServer Payload → Call Payload Output
  | .step _ => { c with deadline := c.wait.map (clock + ·), progress := .waiting }
  | .reset _ _ => { c with deadline := c.wait.map (clock + ·), progress := .waiting }
  | .cancel _ => { c with progress := .leaving (.error (.stepTimedOut c.wait)) }
  | .signal _ => { c with progress := .ended (.ok .nothing) }

/-- The call after `_send` of a message raised: `_cancel` logs what is not a `ModelServerLost`. -/
def afterRaise (exc : Exc) : ToModelServer Payload → Call Payload Output
  | .step _ => { c with progress := .cleaning (.error exc) }
  | .reset _ _ => { c with progress := .cleaning (.error exc) }
  | .cancel _ => match exc with
    | .ended ended => { c with progress := .leaving (.error (.ended ended)) }
    | _ => { c with progress := .leaving (.error (.stepTimedOut c.wait)) }
  | .signal _ => { c with progress := .ended (.error exc) }

end Call

/-- What a call makes of an answer: a step takes a `Result`, a reset takes a `ResetDone`. -/
def conclude : Request Payload → ToSession Output → Result Output
  | .step _ _, .result _ output => .ok (.output output)
  | .reset _ _, .resetDone _ generation => .ok (.generation generation)
  | _, .failed _ error => .error (.failed error)
  | _, _ => .error .attributeError

/-- The next step of a call, where it is not a send. -/
def advance (config : Config) (s : State Payload Output) (i : ℕ) (c : Call Payload Output) :
    Option (State Payload Output × Call Payload Output) :=
  match c.progress with
  | .begun => match c.request with
    | .step _ timeout | .reset _ timeout => match wait config timeout with
      | .ok wait => some (s, { c with wait, progress := .locking })
      | .error exc => some (s, { c with progress := .ended (.error exc) })
    | .signal _ => some (s, { c with progress := .usable })
    | .close =>
      if s.state = .closed then some (s, { c with progress := .ended (.ok .nothing) })
      else some ({ s with state := .closed, ended := some .closed },
        { c with progress := .closing })
  | .locking =>
    if s.callLock = none then
      some ({ s with
          callLock := some i
          attempts := match c.request with
            | .reset _ _ => s.attempts ++ [i]
            | _ => s.attempts },
        { c with progress := .usable })
    else none
  | .usable => match s.ended with
    | some ended => some (s, c.raise (.ended ended))
    | none => match c.request with
      | .signal signal => some (s, { c with progress := .sending (.signal signal) })
      | _ => some (s, { c with progress := .opening })
  | .opening => match c.request with
    | .step request _ =>
      if s.resetRequired then some (s, c.raise .resetRequired)
      else some ({ s with ids := s.ids + 1 },
        { c with
          requestId := some s.ids
          progress := .entering (.step ⟨s.ids, c.wait, request⟩) })
    | .reset sessionId _ => some ({ s with resetRequired := true, ids := s.ids + 1 },
        { c with requestId := some s.ids, progress := .entering (.reset s.ids sessionId) })
    | _ => none
  | .entering message =>
    some ({ s with waiting := c.requestId }, { c with progress := .sending message })
  | .sending _ => none
  | .losing message losing => match lose s losing with
    | (s, some losing) => some (s, { c with progress := .losing message losing })
    | (s, none) => some (s, { c with progress := .checking message })
  | .checking message => match s.ended with
    | some ended => some (s, c.afterRaise (.ended ended) message)
    | none => some (s, c.afterSend s.clock message)
  | .waiting => match c.requestId.bind fun requestId => s.replies.lookup requestId with
    | some answer => some ({ s with replies := s.replies.filter fun e => some e.1 ≠ c.requestId },
        { c with progress := .cleaning (.ok (some answer)) })
    | none => match s.ended with
      | some ended => some (s, { c with progress := .cleaning (.error (.ended ended)) })
      | none =>
        if ∃ deadline ∈ c.deadline, deadline ≤ s.clock then
          some (s, { c with progress := .cleaning (.ok none) })
        else some (s, c)
  | .cleaning outcome => some ({ s with waiting := none, replies := [] },
      { c with progress := match outcome with
        | .ok answer => .concluding answer
        | .error exc => .leaving (.error exc) })
  | .concluding none => match c.request, c.requestId with
    | .step _ _, some requestId => some (s, { c with progress := .sending (.cancel requestId) })
    | _, _ => some (s, { c with progress := .leaving (.error (.stepTimedOut c.wait)) })
  | .concluding (some answer) =>
    some (match conclude c.request answer with
        | .ok (.generation generation) => { s with generation, resetRequired := false }
        | _ => s,
      { c with progress := .leaving (conclude c.request answer) })
  | .leaving result =>
    some ({ s with
        callLock := none
        returned := match result with
          | .ok (.generation generation) => s.returned ++ [(i, generation)]
          | _ => s.returned },
      { c with progress := .ended result })
  | .closing => some (s, { c with progress := .ended (.ok .nothing) })
  | .ended _ => none

def afterLink (s : State Payload Output) (c : Call Payload Output)
    (message : ToModelServer Payload) : Sent → Call Payload Output
  | .sent => c.afterSend s.clock message
  | .gone text => { c with progress := .losing message (.begun ("the link failed: " ++ text)) }
  | .unencoded text => c.afterRaise (.unencoded text) message

/-- The messages that answer a call: a `Result`, a `Failed` or a `ResetDone`. -/
def matchReply (s : State Payload Output) (message : ToSession Output) : State Payload Output :=
  match message.requestId? with
  | some requestId =>
    if s.waiting = some requestId then { s with replies := Dict.set s.replies requestId message }
    else s
  | none => s

def read (s : State Payload Output) : Option (State Payload Output) :=
  match s.reader with
  | .receiving => none
  | .matching message => some { matchReply s message with reader := .receiving }
  | .failed text =>
    let reason := "the model server closed the link"
    some { s with reader := .losing (.begun
      (if s.state ≠ .closed ∧ text ≠ "" then reason ++ ": " ++ text else reason)) }
  | .losing losing => match lose s losing with
    | (s, some losing) => some { s with reader := .losing losing }
    | (s, none) => some { s with reader := .ended }
  | .ended => none

inductive Label (Payload Output : Type) where
  | call (request : Request Payload)
  | next (i : ℕ)
  | send (i : ℕ) (outcome : Sent)
  | tick (time : ℕ)
  | deliver (message : ToSession Output)
  | fail (text : String)
  | read

def step (config : Config) (s : State Payload Output) :
    Label Payload Output → Option (State Payload Output)
  | .call request => some { s with calls := s.calls ++ [{ request }] }
  | .next i => do
    let c ← s.calls[i]?
    let (s, c) ← advance config s i c
    some { s with calls := s.calls.set i c }
  | .send i outcome => do
    let c ← s.calls[i]?
    match c.progress with
    | .sending message => some { s with
        sends := s.sends ++ [(i, message, outcome)]
        calls := s.calls.set i (afterLink s c message outcome) }
    | _ => none
  | .tick time => some { s with clock := s.clock + time }
  | .deliver message => match s.reader with
    | .receiving => some { s with reader := .matching message, received := s.received ++ [message] }
    | _ => none
  | .fail text => match s.reader with
    | .receiving => some { s with reader := .failed text }
    | _ => none
  | .read => read s

/-- The client of a session that was opened. -/
def client (config : Config) : TransitionSystem (State Payload Output) (Label Payload Output) where
  init := { generation := config.generation }
  step := step config

attribute [local simp] advance

end ReactorRuntime.ModelServer.Client
