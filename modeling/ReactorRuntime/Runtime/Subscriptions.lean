import ReactorRuntime.Runtime.EventStream
import ReactorRuntime.TransitionSystem.Basic
import Mathlib.Data.Int.Order.Basic

/-!
# Subscriptions to the egress journal

`EventStream` of `event_stream.py` with its history and its subscribers.  Everything runs on one
event loop, so a step is what happens between two suspensions: a call of `emit`, of `subscribe` or
of `snapshot`; a consumer that reads, and finds something or waits; and an iterator that is closed.
A consumer that waits in `queue.get()` reads again once something is there.

`subscribe` registers the queue when it is called; `_stream`, an asynchronous generator, takes the
queue out again when it is closed, but only if its body was entered, which the first read does.
-/

namespace ReactorRuntime.Runtime

/-- An event with its sequence number. -/
abbrev Item := ℕ × Transition

namespace EventStream

/-- The two limits of a journal, which `__init__` checks. -/
structure Limits where
  history : ℕ
  subscriber : ℕ
  one_le_history : 1 ≤ history
  one_le_subscriber : 1 ≤ subscriber

/-- What a full queue shed: the item, the queue as it was, and the number that was emitted. -/
structure Shed where
  item : Item
  queue : List Item
  emitted : ℕ
  deriving DecidableEq

/-- An iterator that `subscribe` returned, with its queue. -/
structure Subscription where
  start : ℤ
  backlog : List Item
  queue : List Item := []
  /-- Whether the queue is in `_subscribers`. -/
  registered : Bool := true
  /-- Whether the body of `_stream` was entered. -/
  entered : Bool := false
  closed : Bool := false
  /-- History: what was yielded. -/
  yielded : List Item := []
  /-- History: what was retained when `subscribe` was called. -/
  retained : List Item
  /-- History: what the queue shed. -/
  shed : List Shed := []
  deriving DecidableEq

structure Journal where
  events : EventStream := {}
  history : List Item := []
  subscriptions : List Subscription := []
  /-- History: what `snapshot` returned. -/
  snapshots : List SessionSnapshot := []

/-- The iterator that `subscribe` returns: its queue is registered before the backlog is taken. -/
def Subscription.new (start : ℤ) (history : List Item) : Subscription where
  start := start
  backlog := history.filter fun item => start < item.1
  retained := history

/-- What `deque(maxlen=limit)` does with one more item. -/
def push (limit : ℕ) (items : List Item) (item : Item) : List Item :=
  if items.length < limit then items ++ [item] else items.tail ++ [item]

def Subscription.offer (limit : ℕ) (item : Item) (c : Subscription) : Subscription :=
  if c.queue.length < limit then { c with queue := c.queue ++ [item] }
  else
    match c.queue with
    | [] => { c with queue := [item] }
    | oldest :: queue =>
      { c with
        queue := queue ++ [item]
        shed := c.shed ++ [{ item := oldest, queue := c.queue, emitted := item.1 }] }

/-- The next item, if there is one: from the backlog, else from the queue. -/
def Subscription.read (c : Subscription) : Subscription :=
  if c.closed then c
  else
    match c.backlog, c.queue with
    | item :: backlog, _ => { c with entered := true, backlog, yielded := c.yielded ++ [item] }
    | [], item :: queue => { c with entered := true, queue, yielded := c.yielded ++ [item] }
    | [], [] => { c with entered := true }

/-- `aclose`, or the cancellation of a consumer that waits: the `finally` of `_stream` runs only if
its body was entered. -/
def Subscription.close (c : Subscription) : Subscription :=
  if c.closed then c else { c with closed := true, registered := c.registered && !c.entered }

/-- What happens to a journal. -/
inductive Act where
  | emit (t : Transition)
  | subscribe (since : Option ℤ)
  | read (i : ℕ)
  | close (i : ℕ)
  | snapshot

namespace Journal

variable (limits : Limits) (s : Journal)

def emit (t : Transition) : Journal :=
  let item : Item := (s.events.seq + 1, t)
  { s with
    events := s.events.emit t
    history := push limits.history s.history item
    subscriptions := s.subscriptions.map fun c =>
      if c.registered then c.offer limits.subscriber item else c }

/-- `subscribe`, with a number up to the last one that was handed out. -/
def subscribe (since : Option ℤ) : Option Journal :=
  let start := since.getD s.events.seq
  if start ≤ s.events.seq then
    some { s with subscriptions := s.subscriptions ++ [.new start s.history] }
  else none

def step : Act → Option Journal
  | .emit t => some (s.emit limits t)
  | .subscribe since => s.subscribe since
  | .read i => some { s with subscriptions := s.subscriptions.modify i Subscription.read }
  | .close i => some { s with subscriptions := s.subscriptions.modify i Subscription.close }
  | .snapshot => some { s with snapshots := s.snapshots ++ [s.events.snapshot] }

end Journal

def journal (limits : Limits) : TransitionSystem Journal Act where
  init := {}
  step s act := s.step limits act

/-- What a consumer makes of an item: the state it moves to, and one connection more or less. -/
def SessionSnapshot.note (view : SessionSnapshot) (item : Item) : SessionSnapshot where
  state := some item.2.toState
  connections :=
    if item.2.event = .connectionOpened then view.connections + 1
    else if item.2.event = .connectionClosed then view.connections - 1
    else view.connections
  lastSeq := item.1

end EventStream

end ReactorRuntime.Runtime
