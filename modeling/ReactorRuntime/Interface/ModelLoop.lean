import ReactorRuntime.TransitionSystem.Basic

/-!
# The end of the model loop

`crash`, `stop` and `_lifecycle` of `reactor_core.py`, with a failure sink bound.  A step is what a
thread does under the lock `_crash_lock`, what it asks of the loop after it, or what the loop does
between two of these: `_lifecycle` has no suspension but `await self.run()`.  What `run()` does is
open: it may end at any time, in any way, whether or not it was told that it is cancelled.

Left out: what is logged, and the queue and the tasks that are none of the end's business.
-/

namespace ReactorRuntime.Interface.ModelLoop

variable {ε : Type}

/-- What an exception is to the `except` clauses around `run()`. -/
inductive Kind where
  /-- An `Exception`. -/
  | exception
  /-- A `CancelledError`. -/
  | cancelled
  /-- Any other `BaseException`, such as `SystemExit`. -/
  | other
  deriving DecidableEq

/-- How `run()` ended; it is skipped if the model crashed before its loop started. -/
inductive Ending (ε : Type) where
  | skipped
  | returned
  | raised (error : ε)
  deriving DecidableEq

/-- Where `_lifecycle` is. -/
inductive Phase (ε : Type) where
  | idle
  | running
  | ended (ending : Ending ε)
  /-- After the final read, with what is to be reported. -/
  | read (crash : Option ε)
  | done
  /-- An exception has left `_lifecycle`. -/
  | escaped (error : ε)
  deriving DecidableEq

/-- The state that the threads share. -/
structure State (ε : Type) where
  phase : Phase ε := .idle
  crash : Option ε := none
  crashClosed : Bool := false
  /-- Whether `_loop_task` is set. -/
  loopTask : Bool := false
  /-- Whether the background tasks go on. -/
  background : Bool := false
  /-- How many calls of `crash` have the task and still have to ask for its cancellation. -/
  asking : ℕ := 0
  /-- How many calls of `task.cancel` the loop still has to make. -/
  cancels : ℕ := 0
  /-- History: how often `run()` was told that it is cancelled. -/
  told : ℕ := 0
  /-- History: how `run()` ended. -/
  ending : Option (Ending ε) := none
  /-- History: what `crash` was called with, before the final read. -/
  crashes : List ε := []
  /-- History: what the failure sink was called with. -/
  sunk : List ε := []
  deriving DecidableEq

/-- What happens. -/
inductive Act (ε : Type) where
  | crash (error : ε)
  /-- The call of `crash` that was recorded asks for the cancellation. -/
  | ask
  | stop
  /-- The loop makes a call of `task.cancel`. -/
  | cancel
  | start
  /-- `run()` returns, or raises. -/
  | ends (error : Option ε)
  | read
  | report
  deriving DecidableEq

namespace State

variable (kind : ε → Kind) (s : State ε)

def loopClosed : Bool :=
  match s.phase with
  | .done | .escaped _ => true
  | _ => false

def crashWith (error : ε) : State ε :=
  if s.crashClosed then s
  else if s.crash.isSome then { s with crashes := s.crashes ++ [error] }
  else
    { s with
      crash := some error
      asking := if s.loopTask then s.asking + 1 else s.asking
      crashes := s.crashes ++ [error] }

/-- `call_soon_threadsafe(task.cancel)`, which does nothing once the loop is closed. -/
def callSoon : State ε := if s.loopClosed then s else { s with cancels := s.cancels + 1 }

/-- The first read of `_crash`; `run()` is skipped if there is one. -/
def start : State ε :=
  if s.crash.isSome then
    { s with phase := .ended .skipped, loopTask := true, ending := some .skipped }
  else { s with phase := .running, loopTask := true, background := true }

/-- `run()` ends, and the background tasks are cancelled. -/
def ends : Option ε → State ε
  | none =>
    { s with phase := .ended .returned, background := false, ending := some .returned }
  | some error =>
    { s with
      phase := if kind error = .other then .escaped error else .ended (.raised error)
      background := false
      ending := some (.raised error) }

/-- What `run()` raised, if an `except` clause kept it. -/
def kept : Ending ε → Option ε
  | .raised error => if kind error = .exception then some error else none
  | _ => none

def finalRead (ending : Ending ε) : State ε :=
  { s with
    phase := .read (match s.crash with
      | some recorded => some recorded
      | none => kept kind ending)
    crashClosed := true }

def step : Act ε → Option (State ε)
  | .crash error => some (s.crashWith error)
  | .ask => if 0 < s.asking then some { s.callSoon with asking := s.asking - 1 } else none
  | .stop => some (if s.loopTask then s.callSoon else s)
  | .cancel =>
    if 0 < s.cancels ∧ ¬s.loopClosed then
      some { s with
        cancels := s.cancels - 1
        told := match s.phase with
          | .running => s.told + 1
          | _ => s.told }
    else none
  | .start =>
    match s.phase with
    | .idle => some s.start
    | _ => none
  | .ends error =>
    match s.phase with
    | .running => some (s.ends kind error)
    | _ => none
  | .read =>
    match s.phase with
    | .ended ending => some (s.finalRead kind ending)
    | _ => none
  | .report =>
    match s.phase with
    | .read crash => some { s with phase := .done, sunk := s.sunk ++ crash.toList }
    | _ => none

end State

def modelLoop (kind : ε → Kind) : TransitionSystem (State ε) (Act ε) where
  init := {}
  step s act := s.step kind act

end ReactorRuntime.Interface.ModelLoop
