import ReactorRuntime.ModelServer.Batching
import ReactorRuntime.TransitionSystem.Basic

/-!
# Runs of the batching policy

The calls of `BatchPolicy` in any order, with the clock the model server reads and the step thread
that asks the policy for its next batch: `_step_until_drained` of `model_server/server_core.py`.
The thread asks once a request arrives (the caller notifies it), once the step it ran is over, and
again at the `wake_at` of the last turn; it may ask at any other time too.

The last six fields of a `BatchRun` are a history: nothing the policy does depends on them.
-/

namespace ReactorRuntime.ModelServer

/-- The policy with the clock, the step thread, and what became of the requests. -/
structure BatchRun (Payload : Type*) where
  policy : BatchPolicy Payload
  clock : Time
  /-- Whether the step thread runs no batch. -/
  free : Bool
  /-- When the step thread asks for a batch again. -/
  due : Option Time
  /-- The sessions with a request that was taken, and since then neither finished nor dropped. -/
  running : Finset ℕ
  /-- The requests `add` queued, in order. -/
  accepted : List (Waiting Payload)
  batches : List (List (Waiting Payload))
  expired : List (Waiting Payload)
  cancelled : List (Waiting Payload)
  dropped : List (Waiting Payload)

/-- A call of the policy, or a step of what surrounds it. -/
inductive BatchCall (Payload : Type*) where
  | add (request : Waiting Payload)
  | cancel (connection requestId : ℕ)
  | drop (connection : ℕ)
  | finished (connections : List ℕ)
  | take (openSessions : ℕ)
  /-- The clock reads `clock`. -/
  | passes (clock : Time)
  /-- The step that the thread ran is over. -/
  | stepped

namespace BatchRun

variable {Payload : Type*}

/-- A model server that has seen no request, its clock at `clock`. -/
def start (clock : Time) : BatchRun Payload where
  policy := .empty
  clock := clock
  free := true
  due := none
  running := ∅
  accepted := []
  batches := []
  expired := []
  cancelled := []
  dropped := []

/-- `add`, and the notification that makes a thread with nothing to wait for ask. -/
def add (s : BatchRun Payload) (request : Waiting Payload) : BatchRun Payload :=
  match s.policy.add request with
  | none => s
  | some policy => { s with
      policy := policy
      due := if s.free then some (s.due.getD s.clock) else s.due
      accepted := s.accepted ++ [request] }

def cancel (s : BatchRun Payload) (connection requestId : ℕ) : BatchRun Payload :=
  match s.policy.cancel connection requestId with
  | none => s
  | some policy => { s with
      policy := policy
      cancelled := s.cancelled ++
        (s.policy.waiting.find? (BatchPolicy.named connection requestId)).toList }

def drop (s : BatchRun Payload) (connection : ℕ) : BatchRun Payload :=
  { s with
    policy := (s.policy.drop connection).2
    running := s.running.erase connection
    dropped := s.dropped ++ (s.policy.drop connection).1 }

def finished (s : BatchRun Payload) (connections : List ℕ) : BatchRun Payload :=
  { s with
    policy := s.policy.finished connections
    running := s.running \ connections.toFinset }

/-- `take`: the thread runs the batch, or waits until `wake_at`. -/
def take (settings : ServerSettings) (s : BatchRun Payload) (openSessions : ℕ) :
    BatchRun Payload :=
  let (turn, policy) := s.policy.take settings s.clock openSessions
  match turn.batch with
  | [] => { s with
      policy := policy
      due := if s.free then turn.wakeAt else s.due
      expired := s.expired ++ turn.expired }
  | _ :: _ => { s with
      policy := policy
      free := false
      due := none
      running := s.running ∪ (turn.batch.map Waiting.connection).toFinset
      batches := s.batches ++ [turn.batch]
      expired := s.expired ++ turn.expired }

/-- Arrival times and the clock do not go back. -/
def step (settings : ServerSettings) (s : BatchRun Payload) :
    BatchCall Payload → Option (BatchRun Payload)
  | .add request =>
    if ∀ earlier ∈ s.accepted, earlier.arrived ≤ request.arrived then some (s.add request)
    else none
  | .cancel connection requestId => some (s.cancel connection requestId)
  | .drop connection => some (s.drop connection)
  | .finished connections => some (s.finished connections)
  | .take openSessions => some (s.take settings openSessions)
  | .passes clock => if s.clock ≤ clock then some { s with clock := clock } else none
  | .stepped => if s.free then none else some { s with free := true, due := some s.clock }

def transitions (settings : ServerSettings) (clock : Time) :
    TransitionSystem (BatchRun Payload) (BatchCall Payload) where
  init := start clock
  step := step settings

/-- `finished` is told of sessions whose requests a step answered: none of them waits. -/
def answersStepped (s : BatchRun Payload) : BatchCall Payload → Bool
  | .finished connections => s.policy.waiting.all fun r => r.connection ∉ connections
  | _ => true

def asksInTime (s : BatchRun Payload) : BatchCall Payload → Bool
  | .passes clock => s.due.all (clock ≤ ·)
  | _ => true

end BatchRun

end ReactorRuntime.ModelServer
