import Mathlib.Data.Nat.Notation

/-!
# The recorder's start and stop

`start` runs on the runtime's event loop as a streamed session begins; each end of a session queues
a `stop()` of its own, which runs on a worker thread for as long as the encoder takes to drain.
What the two share is `_started` and `_disabled`.  A `stop()` is modelled by where it is
(`StopPhase`), one step for each of its accesses to these flags.

Left out: the encoder, the workers, the segments and the clips.
-/

namespace ReactorRuntime.Recording

/-- How the directories of a recording come about, as `start` makes them. -/
inductive DirectoryReturn where
  | made
  /-- The root cannot be made. -/
  | rootRaises
  /-- The session's directory cannot be made, or its markers cannot be cleared. -/
  | sessionRaises
  deriving DecidableEq, Repr

/-- The recorder.  `session` is history: the session, by number, whose start armed it last. -/
structure Recorder where
  started : Bool := false
  disabled : Bool := false
  sessionId : Option String := none
  session : ℕ := 0
  deriving DecidableEq, Repr

namespace Recorder

/-- `start`, with recording turned on or off by config. -/
def start (r : Recorder) (enabled : Bool) (sessionId : String) (session : ℕ)
    (directory : DirectoryReturn) : Recorder :=
  if enabled = false ∨ r.started = true then r
  else match directory with
    | .rootRaises => { r with disabled := false }
    | .sessionRaises => { r with disabled := false, sessionId := some sessionId }
    | .made => { started := true, disabled := false, sessionId := some sessionId, session }

end Recorder

inductive StopPhase where
  /-- Before it looks at `_started`. -/
  | queued
  /-- It found the recorder started, and is to set `_disabled`. -/
  | found
  /-- The encoder drains and the workers join, before `_started` is cleared. -/
  | draining
  | done
  deriving DecidableEq, Repr

/-- A `stop()` and, as history, the session whose end made the call. -/
structure Stop where
  session : ℕ
  phase : StopPhase := .queued
  deriving DecidableEq, Repr

/-- The recorder and the phase after the next access of a `stop()`. -/
def StopPhase.step (r : Recorder) : StopPhase → Recorder × StopPhase
  | .queued => (r, if r.started then .found else .done)
  | .found => ({ r with disabled := true }, .draining)
  | .draining => ({ r with started := false }, .done)
  | .done => (r, .done)

namespace StopPhase

variable (r : Recorder)

theorem session_step (phase : StopPhase) : (phase.step r).1.session = r.session := by
  cases phase <;> rfl

theorem step_ne_done (phase : StopPhase) {r : Recorder} (hphase : phase ≠ .done)
    (hstarted : (phase.step r).1.started) : (phase.step r).2 ≠ .done := by
  cases phase with
  | queued =>
    have hstarted : r.started = true := hstarted
    show (if r.started then StopPhase.found else .done) ≠ .done
    rw [hstarted]
    decide
  | found => exact StopPhase.noConfusion
  | draining => cases hstarted
  | done => exact absurd rfl hphase

end StopPhase

end ReactorRuntime.Recording
