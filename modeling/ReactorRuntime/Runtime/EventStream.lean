import ReactorRuntime.Runtime.Session

/-!
# The egress journal

Every transition the machine applies is emitted here, and folded into the view of the session that
`snapshot()` answers with: the state, and a count of open connections.

Left out: the subscribers and their queues, and the limit on the history that a subscriber can
replay; `emitted` keeps every event.
-/

namespace ReactorRuntime.Runtime

structure SessionSnapshot where
  state : Option SessionState
  connections : ℕ
  lastSeq : ℕ
  deriving DecidableEq

/-- The journal. -/
structure EventStream where
  seq : ℕ := 0
  state : Option SessionState := none
  connections : ℕ := 0
  emitted : List Transition := []

namespace EventStream

def fold (events : EventStream) (t : Transition) : EventStream :=
  { events with
    state := some t.toState
    connections :=
      if t.event = .connectionOpened then events.connections + 1
      else if t.event = .connectionClosed then events.connections - 1
      else events.connections }

def emit (events : EventStream) (t : Transition) : EventStream :=
  { events with seq := events.seq + 1, emitted := events.emitted ++ [t] }.fold t

def snapshot (events : EventStream) : SessionSnapshot where
  state := events.state
  connections := events.connections
  lastSeq := events.seq

@[simp] theorem emitted_emit (events : EventStream) (t : Transition) :
    (events.emit t).emitted = events.emitted ++ [t] := rfl

theorem connections_emit (events : EventStream) (t : Transition) :
    (events.emit t).connections =
      if t.event = .connectionOpened then events.connections + 1
      else if t.event = .connectionClosed then events.connections - 1
      else events.connections := rfl

end EventStream

end ReactorRuntime.Runtime
