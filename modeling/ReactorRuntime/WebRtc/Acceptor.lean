import ReactorRuntime.Lists.Table
import ReactorRuntime.Runtime.Session
import ReactorRuntime.TransitionSystem.Basic

/-!
# The WebRTC acceptor

The acceptor negotiates offers into connections.  Each accepted offer has a task that negotiates it
and a task that enforces its deadline; the tables are keyed by the connection id the client chose,
and some of them carry the generation of the offer, which is when it arrived.

A step of `acceptor` is one callback of the event loop, or the part of a task between two awaits: an
offer, a candidate, a negotiation going on after its close of the superseded connection, after the
peer factory or after a replayed candidate, a wire connecting or being lost, a close that ends, a
deadline that passes.  A cancelled task raises where it waits and runs no more code that matters, so
a cancellation takes effect at once.

The sink registers every connection it is offered, and its owner may close one at any time.

Left out: what the wires carry, the metrics, and the contents of offers and answers (an answer is
named by the offer that it answers).
-/

namespace ReactorRuntime.WebRtc

open ReactorRuntime.Runtime (ConnId)
open ReactorRuntime.Lists (eraseValue)

/-! ### Offers, candidates and connections -/

/-- An accepted offer, and the connection it is negotiated into: its generation, which is the time
it arrived at (`offered_at`). -/
abbrev Offer := ℕ

/-- A candidate, by its place among the candidates added. -/
abbrev Candidate := ℕ

def MAX_PENDING_ICE_CONNS : ℕ := 128

def MAX_PENDING_ICE_PER_CONN : ℕ := 256

/-- The parts of the configuration that the acceptor reads; only the sign of the timeout matters
here. -/
structure WebRtcConfig where
  maxConnections : ℤ
  negotiationTimeout : ℤ

/-- Where a negotiation task is: not begun, in the close of the superseded connection, in the peer
factory, or in the replay of a candidate with the rest still to come. -/
inductive Negotiation where
  | queued
  | closing (previous : Offer)
  | creating
  | replaying (rest : List Candidate)
  deriving DecidableEq

structure Task where
  id : ConnId
  phase : Negotiation
  deriving DecidableEq

/-- Who runs the close of a connection. -/
inductive Closer where
  | negotiation (g : Offer)
  | deadline (g : Offer)
  | owner
  deriving DecidableEq

/-- A connection: its wire is not up yet, or is up; or it is no longer alive and being closed, or
gone. -/
inductive PeerPhase where
  | halfOpen
  | connected
  | closing (closer : Closer)
  | gone
  deriving DecidableEq

/-- A connection the acceptor built. -/
structure Peer where
  id : ConnId
  phase : PeerPhase
  deriving DecidableEq

def Peer.alive (peer : Peer) : Bool :=
  match peer.phase with
  | .halfOpen | .connected => true
  | _ => false

/-- A close goes no further if it is run by a task that is cancelled. -/
def Peer.abort (cancelled : Option Closer) (peer : Peer) : Peer :=
  if cancelled.map PeerPhase.closing = some peer.phase then { peer with phase := .gone } else peer

/-- A candidate as it is added: for an id, and under its current offer. -/
structure Added where
  id : ConnId
  offer : Option Offer
  deriving DecidableEq

/-- Why an offer is refused. -/
inductive OfferError where
  | tooManyConnections (limit : ℤ)
  | portRangeUnavailable (port : ℕ) (heldBy : ConnId)
  deriving DecidableEq

def pinnedPort : Option (ℕ × ℕ) → Option ℕ
  | none => none
  | some (low, high) => if low = high then some low else none

/-! ### The acceptor -/

structure Acceptor where
  conns : AList fun _ : ConnId => Offer := ∅
  live : Finset ConnId := ∅
  /-- The newest id first. -/
  pendingIce : AList fun _ : ConnId => List Candidate := ∅
  negotiating : AList fun _ : ConnId => Offer := ∅
  answers : AList fun _ : ConnId => Offer := ∅
  offeredAt : AList fun _ : ConnId => Offer := ∅
  deadlines : AList fun _ : ConnId => Offer := ∅
  pinnedPorts : AList fun _ : ConnId => Offer × ℕ := ∅
  /-- The clock: how many offers were accepted. -/
  offers : ℕ := 0
  /-- The negotiation tasks. -/
  tasks : Offer → Option Task := fun _ => none
  /-- The deadline tasks that sleep. -/
  timers : Offer → Option ConnId := fun _ => none
  /-- The connections built. -/
  peers : Offer → Option Peer := fun _ => none
  /-- The connections the sink holds open. -/
  sink : AList fun _ : ConnId => Offer := ∅
  /-- History: the candidates added. -/
  added : List Added := []
  /-- History: the candidates handed to a connection. -/
  handed : List (Candidate × Offer) := []
  /-- History: the candidates dropped by the bounds of the buffer. -/
  overflow : List Candidate := []
  /-- History: the offers whose replay was cancelled. -/
  abandoned : List Offer := []

namespace Acceptor

variable (a : Acceptor) (config : WebRtcConfig)

/-- The ids of `set(_conns) | set(_negotiating)`. -/
def known : Finset ConnId := a.conns.keys.toFinset ∪ a.negotiating.keys.toFinset

def alive (p : Offer) : Bool := (a.peers p).any Peer.alive

/-- A connection enters a phase. -/
def setPhase (p : Offer) (phase : PeerPhase) : Acceptor :=
  { a with peers := Function.update a.peers p ((a.peers p).map fun peer => { peer with phase }) }

/-! ### Tasks -/

def await (g : Offer) (id : ConnId) (phase : Negotiation) : Acceptor :=
  { a with tasks := Function.update a.tasks g (some { id, phase }) }

/-- The end of a negotiation task: its `finally`. -/
def endTask (g : Offer) (id : ConnId) : Acceptor :=
  { a with
    tasks := Function.update a.tasks g none
    negotiating := eraseValue a.negotiating id g }

def isReplaying (g : Offer) : Bool :=
  match a.tasks g with
  | some ⟨_, .replaying _⟩ => true
  | _ => false

/-- `_negotiating.pop(conn_id)`; the task it gives, if any, is cancelled, and with it the close that
it runs. -/
def cancelNegotiation (id : ConnId) : Acceptor :=
  let inFlight := a.negotiating.lookup id
  { a with
    negotiating := a.negotiating.erase id
    tasks := fun g => if inFlight = some g then none else a.tasks g
    peers := fun p => (a.peers p).map (Peer.abort (inFlight.map .negotiation))
    abandoned := a.abandoned ++ (inFlight.filter a.isReplaying).toList }

/-! ### The tables -/

def dropOffer (id : ConnId) (g : Offer) : Acceptor :=
  { a with offeredAt := eraseValue a.offeredAt id g }

def releasePinnedPort (id : ConnId) (g : Offer) : Acceptor :=
  { a with pinnedPorts :=
      if (a.pinnedPorts.lookup id).map Prod.fst = some g then a.pinnedPorts.erase id
      else a.pinnedPorts }

def claimPinnedPort (id : ConnId) (portRange : Option (ℕ × ℕ)) (g : Offer) : Acceptor :=
  { a with pinnedPorts :=
      match pinnedPort portRange with
      | none => a.pinnedPorts.erase id
      | some port => a.pinnedPorts.insert id (g, port) }

/-- `_cancel_deadline` of whichever generation armed it; the task, if any, is cancelled, and with
it the close that it runs. -/
def cancelAnyDeadline (id : ConnId) : Acceptor :=
  let armed := a.deadlines.lookup id
  { a with
    deadlines := a.deadlines.erase id
    timers := fun g => if armed = some g then none else a.timers g
    peers := fun p => (a.peers p).map (Peer.abort (armed.map .deadline)) }

/-- `_cancel_deadline` of an offer's own generation. -/
def cancelDeadline (id : ConnId) (g : Offer) : Acceptor :=
  if a.deadlines.lookup id = some g then a.cancelAnyDeadline id else a

def armDeadline (id : ConnId) (g : Offer) : Acceptor :=
  if config.negotiationTimeout ≤ 0 then a
  else
    { a with
      deadlines := a.deadlines.insert id g
      timers := Function.update a.timers g (some id) }

/-- The end of a deadline task: its `finally`. -/
def endDeadline (id : ConnId) (g : Offer) : Acceptor :=
  { a with deadlines := eraseValue a.deadlines id g }

/-! ### Offers -/

/-- `_guard_capacity`: the limit that is reached. -/
def guardCapacity (id : ConnId) : Option ℤ :=
  if config.maxConnections ≤ 0 then none
  else if id ∉ a.known ∧ (a.known.card : ℤ) ≥ config.maxConnections then
    some config.maxConnections
  else none

def guardPinnedPort (id : ConnId) (portRange : Option (ℕ × ℕ)) : Option (ℕ × ConnId) :=
  match pinnedPort portRange with
  | none => none
  | some port =>
    (a.pinnedPorts.entries.find? fun e => e.1 ≠ id ∧ e.2.2 = port).map fun e => (port, e.1)

def acceptOffer (id : ConnId) (portRange : Option (ℕ × ℕ)) : Acceptor :=
  let a := a.cancelNegotiation id
  let a := a.cancelAnyDeadline id
  let a := { a with answers := a.answers.erase id }
  let offeredAt := a.offers
  let a := { a with offers := a.offers + 1, offeredAt := a.offeredAt.insert id offeredAt }
  let a := a.claimPinnedPort id portRange offeredAt
  let a := { a with negotiating := a.negotiating.insert id offeredAt }.await offeredAt id .queued
  a.armDeadline config id offeredAt

def startOffer (id : ConnId) (portRange : Option (ℕ × ℕ)) : Except OfferError Acceptor :=
  match a.guardCapacity config id, a.guardPinnedPort id portRange with
  | some limit, _ => .error (.tooManyConnections limit)
  | none, some (port, other) => .error (.portRangeUnavailable port other)
  | none, none => .ok (a.acceptOffer config id portRange)

def takeAnswer (id : ConnId) : Acceptor := { a with answers := a.answers.erase id }

/-! ### Negotiations -/

/-- `_negotiate` to its first await. -/
def negotiate (g : Offer) (id : ConnId) : Acceptor :=
  match a.conns.lookup id with
  | none => a.await g id .creating
  | some previous =>
    let a := { a with conns := a.conns.erase id, live := a.live.erase id }
    if a.alive previous then
      (a.setPhase previous (.closing (.negotiation g))).await g id (.closing previous)
    else a.await g id .creating

/-- The loop that replays the candidates, to its next await, and what follows it. -/
def replay (g : Offer) (id : ConnId) : List Candidate → Acceptor
  | [] => { a with answers := a.answers.insert id g }.endTask g id
  | c :: rest => { a with handed := a.handed ++ [(c, g)] }.await g id (.replaying rest)

/-- The peer factory returned: the connection is registered. -/
def create (g : Offer) (id : ConnId) : Acceptor :=
  { a with
    peers := Function.update a.peers g (some { id, phase := .halfOpen })
    conns := a.conns.insert id g
    pendingIce := a.pendingIce.erase id }.replay g id ((a.pendingIce.lookup id).getD [])

/-- A negotiation raises. -/
def fail (g : Offer) (id : ConnId) : Acceptor :=
  (((a.dropOffer id g).cancelDeadline id g).releasePinnedPort id g).endTask g id

/-! ### Connections -/

def opened (id : ConnId) (g : Offer) : Acceptor :=
  let a := (a.cancelDeadline id g).dropOffer id g
  { a with live := insert id a.live, sink := a.sink.insert id g }

/-- The tables that the loss of a connection and a commanded close both clear. -/
def clear (id : ConnId) (g : Offer) : Acceptor :=
  let a := a.cancelDeadline id g
  let a := { a with
    conns := a.conns.erase id
    pendingIce := a.pendingIce.erase id
    answers := a.answers.erase id }
  (a.dropOffer id g).releasePinnedPort id g

def closed (id : ConnId) (g : Offer) : Acceptor :=
  let a := a.clear id g
  if id ∈ a.live then { a with live := a.live.erase id, sink := a.sink.erase id } else a

def forget (id : ConnId) (g : Offer) : Acceptor :=
  let a := a.clear id g
  { a with live := a.live.erase id }

/-- The close of a connection ends: it is forgotten, and the task that ran the close goes on. -/
def endClose (p : Offer) (id : ConnId) : Closer → Acceptor
  | .negotiation g => ((a.setPhase p .gone).forget id p).await g id .creating
  | .deadline g => ((a.setPhase p .gone).forget id p).endDeadline id g
  | .owner => (a.setPhase p .gone).forget id p

/-- A deadline closes the connection that never came up, or clears what the offer left behind. -/
def reap (id : ConnId) (g : Offer) : Acceptor :=
  match a.conns.lookup id with
  | some conn =>
    if a.alive conn then a.setPhase conn (.closing (.deadline g)) else a.endDeadline id g
  | none =>
    let a := { a with
      pendingIce := a.pendingIce.erase id
      answers := a.answers.erase id }
    ((a.dropOffer id g).releasePinnedPort id g).endDeadline id g

/-- `_enforce_deadline`, from the end of its sleep. -/
def enforceDeadline (id : ConnId) (g : Offer) : Acceptor :=
  let a := { a with timers := Function.update a.timers g none }
  if a.offeredAt.lookup id ≠ some g ∨ id ∈ a.live then a.endDeadline id g
  else (a.cancelNegotiation id).reap id g

/-! ### Candidates -/

/-- The offer that is current on an id: the one being negotiated, or the one whose connection is
held; an offer whose connection is gone is not. -/
def currentOffer (id : ConnId) : Option Offer :=
  match a.negotiating.lookup id with
  | some g => if (a.peers g).map Peer.phase = some .gone then none else some g
  | none => a.conns.lookup id

/-- An id that is new to the buffer of early candidates takes the place of the oldest one, where
the buffer is full. -/
def evictOldest : Acceptor :=
  if MAX_PENDING_ICE_CONNS ≤ a.pendingIce.entries.length then
    match a.pendingIce.entries.getLast? with
    | none => a
    | some oldest =>
      { a with
        pendingIce := a.pendingIce.erase oldest.1
        overflow := a.overflow ++ oldest.2 }
  else a

def bufferEarlyIce (id : ConnId) (c : Candidate) : Acceptor :=
  match a.pendingIce.lookup id with
  | none =>
    let a := a.evictOldest
    { a with pendingIce := a.pendingIce.insert id [c] }
  | some pending =>
    if MAX_PENDING_ICE_PER_CONN ≤ pending.length then { a with overflow := a.overflow ++ [c] }
    else { a with pendingIce := a.pendingIce.replace id (pending ++ [c]) }

def addIce (id : ConnId) : Acceptor :=
  let c := a.added.length
  let a := { a with added := a.added ++ [(⟨id, a.currentOffer id⟩ : Added)] }
  match a.conns.lookup id with
  | none => a.bufferEarlyIce id c
  | some p => { a with handed := a.handed ++ [(c, p)] }

end Acceptor

/-! ### Runs -/

/-- What happens next. -/
inductive Label where
  /-- An offer for an id; one that is refused changes nothing. -/
  | startOffer (id : ConnId) (portRange : Option (ℕ × ℕ))
  | takeAnswer (id : ConnId)
  | addIce (id : ConnId)
  /-- A negotiation task begins. -/
  | negotiate (g : Offer)
  /-- The peer factory returns. -/
  | created (g : Offer)
  /-- A replayed candidate was added. -/
  | replayed (g : Offer)
  /-- The peer factory raises, or the peer refuses a replayed candidate. -/
  | raised (g : Offer)
  /-- A wire connects. -/
  | connected (p : Offer)
  /-- A wire is lost. -/
  | lost (p : Offer)
  /-- The owner of a connection closes it. -/
  | close (p : Offer)
  /-- The close of a connection ends. -/
  | closeEnded (p : Offer)
  /-- A deadline passes. -/
  | deadlinePassed (g : Offer)

open Acceptor

/-- The owner closes a connection it was offered; a connection that is not alive has nothing left
to close. -/
def commandedClose (a : Acceptor) (p : Offer) (peer : Peer) : Acceptor :=
  let a := { a with sink := eraseValue a.sink peer.id p }
  if peer.phase = .connected then a.setPhase p (.closing .owner) else a

def next (config : WebRtcConfig) (a : Acceptor) : Label → Option Acceptor
  | .startOffer id portRange =>
    match a.startOffer config id portRange with
    | .error _ => some a
    | .ok a' => some a'
  | .takeAnswer id => some (a.takeAnswer id)
  | .addIce id => some (a.addIce id)
  | .negotiate g =>
    match a.tasks g with
    | some ⟨id, .queued⟩ => some (a.negotiate g id)
    | _ => none
  | .created g =>
    match a.tasks g with
    | some ⟨id, .creating⟩ => some (a.create g id)
    | _ => none
  | .replayed g =>
    match a.tasks g with
    | some ⟨id, .replaying rest⟩ => some (a.replay g id rest)
    | _ => none
  | .raised g =>
    match a.tasks g with
    | some ⟨id, .creating⟩ => some (a.fail g id)
    | some ⟨id, .replaying _⟩ => some (a.fail g id)
    | _ => none
  | .connected p =>
    match a.peers p with
    | some ⟨id, .halfOpen⟩ => some ((a.setPhase p .connected).opened id p)
    | _ => none
  | .lost p =>
    match a.peers p with
    | some ⟨id, .halfOpen⟩ => some ((a.setPhase p .gone).closed id p)
    | some ⟨id, .connected⟩ => some ((a.setPhase p .gone).closed id p)
    | _ => none
  | .close p =>
    match a.peers p with
    | some peer =>
      -- the owner knows a connection from when its wire connected
      if peer.phase = .connected ∨ a.sink.lookup peer.id = some p then
        some (commandedClose a p peer)
      else none
    | none => none
  | .closeEnded p =>
    match a.peers p with
    | some ⟨id, .closing closer⟩ => some (a.endClose p id closer)
    | _ => none
  | .deadlinePassed g =>
    match a.timers g with
    | none => none
    | some id =>
      -- a negotiation task is made before its deadline task, so its first step comes first
      if (a.tasks g).map Task.phase = some .queued then none else some (a.enforceDeadline id g)

/-- The acceptor, from before the first offer. -/
def acceptor (config : WebRtcConfig) : TransitionSystem Acceptor Label where
  init := {}
  step := next config

/-- A configuration with a ceiling and a deadline. -/
def twoSlots : WebRtcConfig := { maxConnections := 2, negotiationTimeout := 30 }

/-- A client whose first offer leads to a wire that is up. -/
def firstOffer : List Label := [.startOffer 1 none, .negotiate 0, .created 0, .connected 0]

attribute [local simp] next

end ReactorRuntime.WebRtc
