import ReactorRuntime.Runtime.Runner

/-!
# The life of a session: the orphan timer and the last notices

The runner with what a move starts beside it: the task that waits for the orphan timeout, and the
notice that tells the clients why their session ends.  A timer that is cancelled never sends its
`TIMEOUT`, not even once its sleep is over.

The time is that of the loop's clock, in units as fine as one likes; a task takes its first step
some time after it is created.  A notice is rendered from texts that every codec can encode; what a
wire raises as it takes the frame stays with that wire (`_deliver`).

Left out: the service's own stop, which cancels the timer.
-/

namespace ReactorRuntime.Runtime

/-- The task of `_orphan_timeout`: created, or in its sleep until the given time. -/
inductive OrphanTimer where
  | created
  | sleeping (wake : ℤ)
  deriving DecidableEq

/-- What the clients are told as their session begins to close. -/
inductive Notice where
  | moderation
  | sessionEnded (reason : String)
  deriving DecidableEq

/-- The runner, its clock and its timer. -/
structure Life where
  runner : Runner := {}
  now : ℤ := 0
  timer : Option OrphanTimer := none
  /-- History: when the machine last changed its state. -/
  entered : ℤ := 0
  /-- History: the notices, each with the connections that took it. -/
  notices : List (Notice × List ConnId) := []

/-- What happens next. -/
inductive Event where
  | passes (now : ℤ)
  /-- The task of the timer takes its first step. -/
  | timerBegins
  /-- The timer's sleep is over. -/
  | timeout
  /-- A step of the runner that is no timeout; `raises` is whether a wire raises as it takes a
  notice. -/
  | runner (label : Label) (raises : ConnId → Bool)

namespace Life

/-- `_reset_orphan_timeout`, of a move that changes the state. -/
def resetOrphanTimeout (orphanTimeout : ℤ) (timer : Option OrphanTimer) (t : Transition) :
    Option OrphanTimer :=
  if t.fromState = t.toState then timer
  else if t.toState = .waiting ∨ t.toState = .orphaned then
    if 0 < orphanTimeout then some .created else none
  else none

/-- `broadcast_response`: the connections that took the frame. -/
def broadcastResponse (raises : ConnId → Bool) : List ConnId → List ConnId
  | [] => []
  | id :: ids =>
    if raises id then broadcastResponse raises ids else id :: broadcastResponse raises ids

/-- The notice of a move, if it enters `CLOSING`. -/
def notice? (t : Transition) : Option Notice :=
  if t.fromState = t.toState ∨ t.toState ≠ .closing then none
  else if t.ending.1 = .moderated then some .moderation
  else if t.ending.2 = "" then none
  else some (.sessionEnded t.ending.2)

/-- What a step of the runner starts beside it, by the moves it made. -/
def settle (orphanTimeout : ℤ) (s : Life) (runner : Runner) (raises : ConnId → Bool) : Life :=
  let moves := runner.events.emitted.drop s.runner.events.emitted.length
  { s with
    runner
    timer := moves.foldl (resetOrphanTimeout orphanTimeout) s.timer
    entered := if moves.any fun t => t.fromState ≠ t.toState then s.now else s.entered
    notices := s.notices ++ (moves.filterMap notice?).map fun notice =>
      (notice, broadcastResponse raises runner.connections.byId.keys) }

/-- Whether a step of the runner is a timeout. -/
def isTimeout : Label → Bool
  | .timeout => true
  | _ => false

/-- The next state; `none` is a step that cannot come. -/
def next (recording : Bool) (orphanTimeout : ℤ) (s : Life) : Event → Option Life
  | .passes now => if s.now < now then some { s with now } else none
  | .timerBegins =>
    if s.timer = some .created then
      some { s with timer := some (.sleeping (s.now + orphanTimeout)) }
    else none
  | .timeout =>
    match s.timer with
    | some (.sleeping wake) =>
      if wake ≤ s.now then
        (Runtime.next recording s.runner .timeout).map fun runner =>
          { s with timer := none }.settle orphanTimeout runner fun _ => false
      else none
    | _ => none
  | .runner label raises =>
    if isTimeout label then none
    else (Runtime.next recording s.runner label).map fun runner =>
      s.settle orphanTimeout runner raises

/-- The runner with its timer, from before the model is loaded. -/
def life (recording : Bool) (orphanTimeout : ℤ) : TransitionSystem Life Event where
  init := {}
  step := next recording orphanTimeout

attribute [local simp] next

end Life

end ReactorRuntime.Runtime
