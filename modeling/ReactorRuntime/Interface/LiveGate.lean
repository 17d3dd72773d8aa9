import Mathlib.Data.Nat.Notation

/-!
# The live gate

What a `ReactorApp` keeps of its session and of who is connected, and the gate that its step loop
waits on.  The events of the reactor are dispatched on the model's thread, each after those posted
before it.
-/

namespace ReactorRuntime.Interface

/-- An event of the reactor, less what only its hook reads. -/
inductive ReactorEvent where
  | clientConnected (conn : String) (total : ℕ)
  | clientDisconnected (conn : String) (total : ℕ)
  | sessionStarted (startingInput stepped : Bool) (steps : Option ℕ)
  | startingInputApplied
  | sessionEnded
  | fileUploaded (conn : String)
  deriving DecidableEq

inductive StepRefusalKind where
  | refused
  | notReady
  | commandFailed
  deriving DecidableEq

/-- The session of a `ReactorApp`, and its gate. -/
structure LiveGate where
  connected : Bool := false
  sessionActive : Bool := false
  startingInputPending : Bool := false
  stepped : Bool := false
  stepsAccepted : ℕ := 0
  stepLimit : Option ℕ := none
  sessionsStarted : ℕ := 0
  live : Bool := false
  gateDrops : ℕ := 0
  deriving DecidableEq

namespace LiveGate

variable (g : LiveGate)

def updateLive : LiveGate :=
  if g.connected && g.sessionActive && !g.startingInputPending && !g.stepped then
    { g with live := true }
  else if g.live then { g with live := false, gateDrops := g.gateDrops + 1 }
  else g

def setConnected (total : ℕ) : LiveGate := { g with connected := decide (0 < total) }.updateLive

/-- What a `SessionStarted` does before it waits for the step lock. -/
def sessionStarted (startingInput stepped : Bool) (steps : Option ℕ) : LiveGate :=
  { g with
    sessionsStarted := g.sessionsStarted + 1
    sessionActive := true
    startingInputPending := startingInput
    stepped
    stepsAccepted := 0
    stepLimit := steps }.updateLive

def startingInputApplied : LiveGate := { g with startingInputPending := false }.updateLive

/-- What a `SessionEnded` does before it waits for the step lock. -/
def sessionEnded : LiveGate :=
  { g with sessionActive := false, startingInputPending := false }.setConnected 0

/-- What a `SessionEnded` does after its hook. -/
def retire : LiveGate := { g with stepped := false }

def dispatch : ReactorEvent → LiveGate
  | .clientConnected _ total | .clientDisconnected _ total => g.setConnected total
  | .sessionStarted startingInput stepped steps => g.sessionStarted startingInput stepped steps
  | .startingInputApplied => g.startingInputApplied
  | .sessionEnded => g.sessionEnded
  | .fileUploaded _ => g

def stepClosed : Option (String × StepRefusalKind) :=
  if !g.sessionActive then some ("no session is running", .notReady)
  else if !g.stepped then some ("the session is not stepped", .refused)
  else
    match g.stepLimit with
    | some limit =>
      if limit ≤ g.stepsAccepted then
        some ("the session already took its " ++ toString limit ++ " steps", .refused)
      else none
    | none => none

end LiveGate

end ReactorRuntime.Interface
