import Mathlib.Data.Finset.Card
import ReactorRuntime.ModelServer.Protocol

/-!
# The batching policy

`BatchPolicy` of `model_server/batching.py`: the requests that wait, the sessions that have one
waiting or running, and the rules that form a batch.  It has no clock of its own.

Requests are compared by identity in the source, so `take` splits the waiting list by whether a
request's deadline passed, and `cancel` withdraws the first request that matches.  The field
`order` of a request is written and never read, and is left out.
-/

namespace ReactorRuntime.ModelServer

/-- The serving settings the core reads: the most requests one step takes, and how long a batch
may wait to fill. -/
structure ServerSettings where
  maxBatch : ℕ
  batchWindow : Time
  maxBatch_pos : 0 < maxBatch
  batchWindow_nonneg : 0 ≤ batchWindow

structure Waiting (Payload : Type*) where
  /-- Names the session's connection on the model server. -/
  connection : ℕ
  /-- The id its answer carries. -/
  requestId : ℕ
  payload : Payload
  arrived : Time
  /-- When it expires if it is still waiting. -/
  deadline : Option Time

/-- What the policy decided at one moment. -/
structure Turn (Payload : Type*) where
  batch : List (Waiting Payload)
  expired : List (Waiting Payload)
  wakeAt : Option Time

/-- The requests that wait, in arrival order, and the sessions that have one waiting or running. -/
structure BatchPolicy (Payload : Type*) where
  waiting : List (Waiting Payload)
  busy : Finset ℕ

variable {Payload : Type*}

/-- Whether the request's deadline has passed at `now`. -/
def Waiting.overdue (now : Time) (request : Waiting Payload) : Bool :=
  match request.deadline with
  | none => false
  | some deadline => deadline ≤ now

namespace BatchPolicy

def empty : BatchPolicy Payload := ⟨[], ∅⟩

/-- Queue `request`; `none` if its session already has one waiting or running. -/
def add (policy : BatchPolicy Payload) (request : Waiting Payload) : Option (BatchPolicy Payload) :=
  if request.connection ∈ policy.busy then none
  else some ⟨policy.waiting ++ [request], insert request.connection policy.busy⟩

def named (connection requestId : ℕ) (request : Waiting Payload) : Bool :=
  request.connection = connection ∧ request.requestId = requestId

/-- Withdraw a waiting request; `none` if none by that name still waits. -/
def cancel (policy : BatchPolicy Payload) (connection requestId : ℕ) :
    Option (BatchPolicy Payload) :=
  if policy.waiting.any (named connection requestId) then
    some ⟨policy.waiting.eraseP (named connection requestId), policy.busy.erase connection⟩
  else none

/-- The waiting requests of one session. -/
def waitingOf (policy : BatchPolicy Payload) (connection : ℕ) : List (Waiting Payload) :=
  policy.waiting.filter fun r => r.connection = connection

/-- Withdraw every waiting request of a session that left or reset, and return them. -/
def drop (policy : BatchPolicy Payload) (connection : ℕ) :
    List (Waiting Payload) × BatchPolicy Payload :=
  (policy.waitingOf connection,
    ⟨policy.waiting.filter fun r => r.connection ≠ connection, policy.busy.erase connection⟩)

/-- Release the sessions whose requests a step just answered. -/
def finished (policy : BatchPolicy Payload) (connections : List ℕ) : BatchPolicy Payload :=
  { policy with busy := policy.busy \ connections.toFinset }

/-- Take the requests whose deadline passed out of the queue and release their sessions. -/
def expire (policy : BatchPolicy Payload) (now : Time) : BatchPolicy Payload :=
  let expired := policy.waiting.filter fun r => r.overdue now
  ⟨policy.waiting.filter fun r => ¬ r.overdue now,
    policy.busy \ (expired.map Waiting.connection).toFinset⟩

/-- How many sessions have a request running: busy, with none waiting. -/
def running (policy : BatchPolicy Payload) : ℤ :=
  policy.busy.card - (policy.waiting.map Waiting.connection).toFinset.card

/-- Whether the batch that waits is full: `max_batch` requests wait, or every open session that
can send one has one waiting. -/
def full (policy : BatchPolicy Payload) (settings : ServerSettings) (openSessions : ℕ) : Prop :=
  min (settings.maxBatch : ℤ) (max (openSessions - policy.running) 1) ≤ policy.waiting.length

instance (policy : BatchPolicy Payload) (settings : ServerSettings) (openSessions : ℕ) :
    Decidable (policy.full settings openSessions) :=
  inferInstanceAs (Decidable (_ ≤ _))

/-- Decide what to step at `now`, given how many sessions are open. -/
def take (policy : BatchPolicy Payload) (settings : ServerSettings) (now : Time)
    (openSessions : ℕ) : Turn Payload × BatchPolicy Payload :=
  let expired := policy.waiting.filter fun r => r.overdue now
  let policy := policy.expire now
  match policy.waiting with
  | [] => (⟨[], expired, none⟩, policy)
  | first :: _ =>
    let until_ := first.arrived + settings.batchWindow
    if ¬ policy.full settings openSessions ∧ now < until_ then
      (⟨[], expired, some ((policy.waiting.filterMap Waiting.deadline).foldl min until_)⟩, policy)
    else
      (⟨policy.waiting.take settings.maxBatch, expired, none⟩,
        { policy with waiting := policy.waiting.drop settings.maxBatch })

end BatchPolicy

end ReactorRuntime.ModelServer
