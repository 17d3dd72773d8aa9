import ReactorRuntime.Graphs.DepthFirst
import ReactorRuntime.TransitionSystem.Basic

/-!
# The lifecycle root

`Service` of `service.py`: the components, their order, `run` and `request_shutdown`.  A step is
what `run` does between two suspensions, and a request may come at any of them.  What a component does in
`start`, `drain` and `stop` is open: a call ends at some time, or raises an `Exception`.

The log of what is called, of what returns or raises, and of the requests, is history.

Left out: the exit that the deadline forces once it is over, the health of the components, what is
logged, and the limit on the depth of Python's stack.
-/

namespace ReactorRuntime.Runtime.Service

open Graphs

/-- `ServiceComponent`, as far as the order needs it. -/
structure ServiceComponent where
  name : String
  dependsOn : List String
  deriving DecidableEq

/-- `_components`, in the order in which they were added. -/
structure Components where
  entries : List ServiceComponent
  nodup_names : (entries.map ServiceComponent.name).Nodup

namespace Components

variable (cs : Components)

def names : List String := cs.entries.map ServiceComponent.name

def get? (name : String) : Option ServiceComponent := cs.entries.find? fun c => c.name = name

/-- `add`, unless it raises. -/
def add (c : ServiceComponent) : Except String Components :=
  if h : c.name ∈ cs.names then .error s!"duplicate component name '{c.name}'"
  else
    .ok
      { entries := cs.entries ++ [c]
        nodup_names := by
          rw [List.map_append, List.nodup_append]
          refine ⟨cs.nodup_names, List.nodup_singleton _, fun a ha b hb heq => h ?_⟩
          rwa [← List.mem_singleton.mp hb, ← heq] }

def topologicalOrder : Except (Refusal String) (List ServiceComponent) :=
  (order cs.get? ServiceComponent.dependsOn cs.names).map Marks.ordered

end Components

/-- The text of the `ValueError` that `_topological_order` raises. -/
def message : Refusal String → String
  | .cycle name => s!"dependency cycle through '{name}'"
  | .unknown name => s!"unknown component dependency '{name}'"
  | .depth => ""

/-- What `run` awaits of a component. -/
inductive Call where
  | start
  | drain
  | stop
  deriving DecidableEq

/-- What is logged. -/
inductive Event where
  | begins (call : Call) (name : String)
  | ends (call : Call) (name : String) (raised : Bool)
  | requested (failure : Bool)
  deriving DecidableEq

/-- `_budget`: the exit timeout, with the grace period or without. -/
inductive Budget where
  | exitTimeout
  | graceAndExitTimeout
  deriving DecidableEq

/-- Where `run` is. -/
inductive Phase where
  | idle
  | refused (refusal : Refusal String)
  | starting (current : ServiceComponent) (todo : List ServiceComponent)
  | waiting
  | draining (current : ServiceComponent) (todo : List ServiceComponent)
  | stopping (current : ServiceComponent) (todo : List ServiceComponent)
  | ended
  deriving DecidableEq

structure State where
  phase : Phase := .idle
  shutdown : Bool := false
  failure : Bool := false
  deadline : Option Budget := none
  started : List ServiceComponent := []
  /-- The component whose start raised, which `run` raises again in the end. -/
  raised : Option String := none
  /-- History. -/
  log : List Event := []
  deriving DecidableEq

/-- What happens. -/
inductive Act where
  | run
  | request (failure : Bool)
  /-- The call that `run` awaits ends. -/
  | ends (raised : Bool)
  /-- `_shutdown.wait()` returns. -/
  | wake
  deriving DecidableEq

def failureExitCode : ℕ := 1

namespace State

variable (s : State)

def exitCode : ℕ := if s.failure then failureExitCode else 0

def budget : Budget := if s.failure then .exitTimeout else .graceAndExitTimeout

def armDeadline : State :=
  match s.deadline with
  | some _ => s
  | none => { s with deadline := some s.budget }

def requestShutdown (failure : Bool) : State :=
  let requested : State :=
    { s with
      failure := s.failure || failure
      shutdown := true
      log := s.log ++ [.requested failure] }
  requested.armDeadline

def note (event : Event) : State := { s with log := s.log ++ [event] }

def stopNext : List ServiceComponent → State
  | [] => { s with phase := .ended, deadline := none }
  | c :: todo => { s with phase := .stopping c todo }.note (.begins .stop c.name)

def drainNext : List ServiceComponent → State
  | [] => s.stopNext s.started
  | c :: todo => { s with phase := .draining c todo }.note (.begins .drain c.name)

def startNext : List ServiceComponent → State
  | [] => { s with phase := .waiting }
  | c :: todo => { s with phase := .starting c todo }.note (.begins .start c.name)

def step (cs : Components) : Act → Option State
  | .run =>
    match s.phase with
    | .idle =>
      match cs.topologicalOrder with
      | .error refusal => some { s with phase := .refused refusal }
      | .ok order => some (s.startNext order.reverse)
    | _ => none
  | .request failure => some (s.requestShutdown failure)
  | .ends raised =>
    match s.phase with
    | .starting c todo =>
      let noted := s.note (.ends .start c.name raised)
      if raised then some ({ noted with raised := some c.name }.drainNext s.started)
      else if s.shutdown then some { noted with phase := .waiting, started := s.started ++ [c] }
      else some ({ noted with started := s.started ++ [c] }.startNext todo)
    | .draining c todo => some ((s.note (.ends .drain c.name raised)).drainNext todo)
    | .stopping c todo => some ((s.note (.ends .stop c.name raised)).stopNext todo)
    | _ => none
  | .wake =>
    match s.phase with
    | .waiting => if s.shutdown then some (s.drainNext s.started) else none
    | _ => none

end State

def service (cs : Components) : TransitionSystem State Act where
  init := {}
  step s act := s.step cs act

end ReactorRuntime.Runtime.Service
