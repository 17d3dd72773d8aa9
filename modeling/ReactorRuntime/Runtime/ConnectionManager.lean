import ReactorRuntime.Runtime.Session
import Mathlib.Data.List.AList
import Mathlib.Data.Finset.Basic

/-!
# The registry of a session's connections, and the epochs of their offers

`ConnectionManager` holds the live connections by id, the journal detail each opened with, and the
ids that do not count toward occupancy.  `add`, `remove` and `clear` are the parts of `register`,
`drop` and `close_all` that touch these tables; the events they send are the runner's
(`Runner.register`, `Runner.drop`).

`OfferEpochs` stamps an admitted offer with the number of sessions started so far.

`closeSession` is the end of a session: the wires are closed one after the other.

Left out: the claims on ids, the publishers of tracks, and everything sent over the wires.
-/

namespace ReactorRuntime.Runtime

def SYSTEM_CONN_ID : ConnId := 0

/-- A connection: its id, the wire it stands for, and the origin its transport names. -/
structure Connection where
  id : ConnId
  wire : ℕ := 0
  origin : Option ConnectionOrigin := none
  deriving DecidableEq, Repr

def connectionDetail (conn : Connection) (system : Bool) : ConnectionDetail where
  connId := conn.id
  system := system || conn.origin.any (·.system)
  transport := conn.origin.map (·.transport)
  identity := conn.origin.bind (·.identity)

def SystemConnection : Connection := { id := SYSTEM_CONN_ID }

/-! ### The registry -/

/-- The live connections of one session. -/
structure ConnectionManager where
  byId : AList fun _ : ConnId => Connection := ∅
  details : AList fun _ : ConnId => ConnectionDetail := ∅
  unoccupying : Finset ConnId := ∅

namespace ConnectionManager

def count (m : ConnectionManager) : ℕ := m.byId.keys.length

def occupants (m : ConnectionManager) : ℕ := m.byId.keys.countP (· ∉ m.unoccupying)

/-- A connection whose id is registered takes the place of the one it had. -/
def replace (m : ConnectionManager) (conn : Connection) : ConnectionManager :=
  { m with byId := m.byId.insert conn.id conn }

/-- The tables of `register` for an id that is not registered. -/
def add (m : ConnectionManager) (conn : Connection) (detail : ConnectionDetail) (occupies : Bool) :
    ConnectionManager where
  byId := m.byId.insert conn.id conn
  details := m.details.insert conn.id detail
  unoccupying := if occupies then m.unoccupying else insert conn.id m.unoccupying

/-- The tables of `drop` for an id that is registered. -/
def remove (m : ConnectionManager) (cid : ConnId) : ConnectionManager where
  byId := m.byId.erase cid
  details := m.details.erase cid
  unoccupying := m.unoccupying.erase cid

/-- The tables as `close_all` leaves them, before it closes a wire. -/
def clear (_ : ConnectionManager) : ConnectionManager := {}

end ConnectionManager

/-! ### The closes of a teardown -/

/-- The loop of `close_all` over the connections that were registered, in order: those whose `close`
was awaited, and whether one raised. -/
def closeEach (raises : Connection → Bool) : List Connection → List Connection × Bool
  | [] => ([], false)
  | conn :: conns =>
    if raises conn then ([conn], true)
    else (conn :: (closeEach raises conns).1, (closeEach raises conns).2)

/-- `_close_session`: the connections whose `close` was awaited, and the machine after, whether or
not one raised. -/
def closeSession (raises : Connection → Bool) (conns : List Connection) (m : SessionStateMachine) :
    List Connection × SessionStateMachine :=
  ((closeEach raises conns).1, (m.send .cleanupComplete).getD m)

/-! ### The epochs of offers -/

/-- Which session each admitted connection offer belongs to. -/
structure OfferEpochs where
  current : ℕ := 0
  stamps : AList fun _ : ConnId => ℕ := ∅

namespace OfferEpochs

def sessionStarted (e : OfferEpochs) : OfferEpochs := { e with current := e.current + 1 }

def stamp (e : OfferEpochs) (id : ConnId) : OfferEpochs :=
  { e with stamps := e.stamps.insert id e.current }

/-- Whether the offer of an id was stamped in an earlier epoch: what `consume` returns. -/
def stale (e : OfferEpochs) (id : ConnId) : Bool :=
  match e.stamps.lookup id with
  | none => false
  | some stamped => stamped ≠ e.current

def consume (e : OfferEpochs) (id : ConnId) : OfferEpochs :=
  { e with stamps := e.stamps.erase id }

end OfferEpochs

end ReactorRuntime.Runtime
