import ReactorRuntime.LiveKit.Room
import ReactorRuntime.Runtime.Runner
import Mathlib.Data.Finset.Option

/-!
# The requests that open room connections

The LiveKit router opens one room connection at a time, under a lock.  A request is let in by
`require_session_running` before it takes the lock; under it, the request awaits only the end of the
room connection of an ended session (`retire`), and goes on to claim an id, to stamp it and to start
the room connection.  The lock is fair: a request waits behind those that wait already.

The room connections are numbered as they are made; one that is not made yet is as it will start.  A
join that succeeds reports to the runner in the same step.  `joined` is the history of the room
connections that the runner registered, each with the session that was live.

Left out: how an id is claimed, which gives an id or refuses the request; the connections of
participants; the other routes; and that a request is cancelled.
-/

namespace ReactorRuntime.LiveKit

open ReactorRuntime.Runtime (ConnId Connection Runner)

/-- A request that waits for `retire`: the session it was let in by, the epoch it read, and the room
connection. -/
structure Retiring where
  session : Option ℕ
  epoch : ℕ
  previous : ℕ
  deriving DecidableEq

structure Router where
  runner : Runner := {}
  rooms : ℕ → RoomSession := fun _ => {}
  /-- How many room connections were made, and the id of each. -/
  made : ℕ := 0
  ids : ℕ → ConnId := fun _ => 0
  /-- `_room`, and `_room_epoch`. -/
  room : Option ℕ := none
  roomEpoch : ℕ := 0
  leaving : Finset ℕ := ∅
  /-- The requests that wait for the lock, each by the session it was let in by. -/
  waiting : List (Option ℕ) := []
  /-- The request that holds the lock, between two steps. -/
  retiring : Option Retiring := none
  /-- History: the session by which the request of each room connection was let in. -/
  requestedIn : ℕ → Option ℕ := fun _ => none
  /-- History: the room connection, if it is one, whose offer has the stamp of each id. -/
  stampedFor : AList fun _ : ConnId => Option ℕ := ∅
  /-- History: the room connections registered, with the session that was live. -/
  joined : List (ℕ × Option ℕ) := []

namespace Router

variable (recording : Bool) (s : Router)

def liveSession : Option ℕ :=
  if s.runner.machine.state.isRunning then some s.runner.offerEpochs.current else none

def connection (i : ℕ) : Connection where
  id := s.ids i
  wire := i
  origin := some { transport := "livekit", identity := none, system := true }

/-- `offer_admitted`, and the start of a room connection. -/
def openRoom (session : Option ℕ) (epoch : ℕ) : Option ConnId → Router
  | none => s
  | some id =>
    let previous := s.room.toFinset.filter fun i => (s.rooms i).settled = false
    { s with
      runner := { s.runner with offerEpochs := s.runner.offerEpochs.stamp id }
      made := s.made + 1
      ids := Function.update s.ids s.made id
      room := some s.made
      roomEpoch := epoch
      leaving := (s.leaving ∪ previous).filter fun i => (s.rooms i).settled = false
      requestedIn := Function.update s.requestedIn s.made session
      stampedFor := s.stampedFor.insert id (some s.made) }

/-- `retire` of a room connection, up to where it waits. -/
def retire (i : ℕ) : Router :=
  { s with rooms := Function.update s.rooms i ((s.rooms i).finish .sessionEnded .caller) }

/-- A request that holds the lock, up to where it waits or ends. -/
def serve (session : Option ℕ) (id : Option ConnId) : Router :=
  let epoch := s.runner.offerEpochs.current
  match s.room with
  | none => s.openRoom session epoch id
  | some previous =>
    if s.roomEpoch = epoch then
      -- a session has one room connection, until that has left its room
      if (s.rooms previous).active || !(s.rooms previous).settled then s
      else s.openRoom session epoch id
    else
      match (s.rooms previous).state with
      | .opened => { s.retire previous with retiring := some ⟨session, epoch, previous⟩ }
      -- a join that is abandoned is not waited for
      | .joining => (s.retire previous).openRoom session epoch id
      | .failed | .closed => s.openRoom session epoch id

/-- Whether `connection_opened` refuses a room connection. -/
def refuses (i : ℕ) : Bool :=
  s.runner.machine.state.isStale || s.runner.offerEpochs.stale (s.ids i)

/-- A join succeeded: the runner registers the room connection, or not. -/
def connect (i : ℕ) (room : RoomSession) : Router :=
  { s with
    runner := s.runner.connectionOpened recording (s.connection i)
    rooms := Function.update s.rooms i room
    stampedFor := s.stampedFor.insert (s.ids i) none
    joined := if s.refuses i then s.joined else s.joined ++ [(i, s.liveSession)] }

def opens (i : ℕ) : Bool := (s.rooms i).state = .joining && (s.rooms i).attempt = .succeeded

end Router

/-! ### Runs -/

/-- What happens next. -/
inductive Router.Label where
  /-- Something of the runner, which may be an offer or a connection of another transport. -/
  | runner (l : Runtime.Label)
  /-- Something of a room connection. -/
  | room (i : ℕ) (l : RoomSession.Label)
  /-- A request arrives; each of these comes with the id it would claim. -/
  | request (id : Option ConnId)
  /-- The first request that waits takes the lock. -/
  | acquire (id : Option ConnId)
  /-- `retire` returns. -/
  | retired (id : Option ConnId)

/-- The id whose stamp a step of the runner makes or takes. -/
def stampOf : Runtime.Label → Option ConnId
  | .offerAdmitted id => some id
  | .connectionOpened conn => some conn.id
  | _ => none

def Router.next (recording : Bool) (s : Router) : Router.Label → Option Router
  | .runner l => (Runtime.next recording s.runner l).map fun runner => { s with
      runner
      stampedFor := (stampOf l).elim s.stampedFor fun id => s.stampedFor.insert id none }
  | .room i (.joinWakes accepted present) =>
    if i < s.made ∧ (s.opens i → accepted = !s.refuses i) then
      ((s.rooms i).next (.joinWakes accepted present)).map fun room =>
        if s.opens i then s.connect recording i room
        else { s with rooms := Function.update s.rooms i room }
    else none
  | .room i l =>
    if i < s.made then
      ((s.rooms i).next l).map fun room => { s with rooms := Function.update s.rooms i room }
    else none
  | .request id =>
    if s.runner.machine.state.isRunning then
      if s.retiring = none ∧ s.waiting = [] then some (s.serve s.liveSession id)
      else some { s with waiting := s.waiting ++ [s.liveSession] }
    else none
  | .acquire id =>
    match s.waiting, s.retiring with
    | session :: waiting, none => some ({ s with waiting }.serve session id)
    | _, _ => none
  | .retired id =>
    match s.retiring with
    | some r =>
      if (s.rooms r.previous).finishing = none then
        some ({ s with retiring := none }.openRoom r.session r.epoch id)
      else none
    | none => none

/-- The router and its runner, from before the model is loaded. -/
def router (recording : Bool) : TransitionSystem Router Router.Label where
  init := {}
  step := Router.next recording

end ReactorRuntime.LiveKit
