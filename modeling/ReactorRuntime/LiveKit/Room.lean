import ReactorRuntime.TransitionSystem.Basic
import Mathlib.Data.List.Basic

/-!
# A room connection

`RoomSession` joins a room once and leaves it once.  A step is a turn of the event loop in which one
of its tasks goes on up to its next await: the join, the attempt it waits for, the leave that
follows an abandoned attempt, a `_finish` that waits, the session's `close()` of the connection; or
in which the room reports something.

The session holds the connections it accepted until one is reported closed, or until its teardown
takes all of them out to close them itself (`sessionCloses`); `opened` and `ended` are the history
of that.  It accepts no participant once it closed the room connection.

Left out: the input tracks, the messages and the RPC methods, what is logged, and how old a leave
is; that a task is cancelled.
-/

namespace ReactorRuntime.LiveKit

inductive RoomState where
  | joining
  | opened
  | failed
  | closed
  deriving DecidableEq

/-- Why a room connection failed or closed. -/
inductive CloseReason where
  /-- "the LiveKit room could not be joined: {cause}". -/
  | joinRefused
  /-- "joining the LiveKit room timed out". -/
  | joinTimedOut
  /-- "the LiveKit room connection closed ({reason})". -/
  | roomLost
  /-- "the room was left on request". -/
  | left
  /-- "the session ended". -/
  | sessionEnded
  deriving DecidableEq

/-- `_run_join`: before it begins, while it waits for the attempt, and while it waits for the leave,
after which a join that failed is reported. -/
inductive JoinTask where
  | created
  | waiting
  | leaving (failed : Bool)
  | done
  deriving DecidableEq

/-- `_connect_and_publish`, and how it ended. -/
inductive Attempt where
  | created
  | connecting
  | publishing
  | succeeded
  | failed
  deriving DecidableEq

/-- What leaves the room once an abandoned attempt has settled: the callback, then its task. -/
inductive AbandonTask where
  | none
  | attached
  | created
  | leaving
  | done
  deriving DecidableEq

/-- Who runs a `_finish`: a caller of `leave` or `retire`, the task of a loss, or the closing of the
connection by the session. -/
inductive Finisher where
  | caller
  | loss
  | session
  deriving DecidableEq

/-- A `_finish` that waits: for the connection to stop its media, or for the leave. -/
inductive FinishStage where
  | stopping
  | leaving
  deriving DecidableEq

/-- The session's `close()` of the connection: before it begins, while the connection stops its
media, and while the participants are closed. -/
inductive CloseStage where
  | scheduled
  | stopping
  | participants
  deriving DecidableEq

/-- A connection of the session: the room's, or the one made for a participant. -/
inductive Conn where
  | room
  | participant (n : ℕ)
  deriving DecidableEq

structure RoomSession where
  state : RoomState := .joining
  reason : Option CloseReason := none
  join : JoinTask := .created
  attempt : Attempt := .created
  leavePending : Bool := false
  abandoned : AbandonTask := .none
  /-- Whether `_connection` is set, and whether that connection is closed or closing. -/
  connection : Bool := false
  connectionClosed : Bool := false
  registered : Bool := false
  /-- The participants that are clients, by identity. -/
  participants : List (String × ℕ) := []
  /-- How many connections were made for participants. -/
  made : ℕ := 0
  /-- The `_finish` that closed the room connection, while it waits. -/
  finishing : Option (Finisher × FinishStage) := none
  /-- The session's `close()` of the connection, while it runs. -/
  closing : Option CloseStage := none
  /-- The tasks of losses that have not begun. -/
  lossTasks : ℕ := 0
  /-- The leaves that were started, and whether each has ended. -/
  leaves : List Bool := []
  /-- Whether the session's teardown took out its connections to close them. -/
  tornDown : Bool := false
  /-- Whether the room reported its loss. -/
  lost : Bool := false
  /-- History: the joins reported as failed. -/
  failures : List CloseReason := []
  /-- History: the connections that the session accepted. -/
  opened : List Conn := []
  /-- History: the connections reported closed, and those that the session closed itself. -/
  ended : List Conn := []

namespace RoomSession

variable (s : RoomSession)

def active : Bool := s.state = .joining || s.state = .opened

def attemptDone : Bool := s.attempt = .succeeded || s.attempt = .failed

/-- Whether each of the `_closing` tasks is done: an abandoned attempt and the task that leaves the
room after it, the losses, and the leaves. -/
def closingDone : Bool :=
  (s.abandoned = .none || s.attemptDone && (s.abandoned = .attached || s.abandoned = .done)) &&
    s.lossTasks = 0 && (s.finishing.all fun f => f.1 ≠ .loss) && s.leaves.all id

def settled : Bool := !s.active && !s.leavePending && s.join = .done && s.closingDone

/-- The start of `_disconnect`. -/
def startLeave : RoomSession := { s with leaves := s.leaves ++ [false] }

/-- `_finish`, up to where it waits. -/
def finish (reason : CloseReason) (finisher : Finisher) : RoomSession :=
  if !s.active then s
  else
    let closed := { s with
      state := .closed
      reason := some reason
      registered := false
      participants := []
      ended := s.ended ++ s.participants.map fun p => .participant p.2 }
    if s.state = .joining then closed
    else if s.connection then
      let closed := { closed with connection := false, ended := closed.ended ++ [Conn.room] }
      if s.connectionClosed then { closed.startLeave with finishing := some (finisher, .leaving) }
      else { closed with connectionClosed := true, finishing := some (finisher, .stopping) }
    else { closed.startLeave with finishing := some (finisher, .leaving) }

/-- `_add_participant`: nothing comes of it where no id is left, and the session accepts the
connection or not. -/
def addParticipant (identity : String) (accepted : Option Bool) : RoomSession :=
  if !s.registered || s.participants.any fun p => p.1 = identity then s
  else
    match accepted with
    | none => s
    | some false => { s with made := s.made + 1 }
    | some true => { s with
        made := s.made + 1
        participants := s.participants ++ [(identity, s.made)]
        opened := s.opened ++ [.participant s.made] }

def removeParticipant (identity : String) : RoomSession :=
  match s.participants.find? fun p => p.1 = identity with
  | none => s
  | some p => { s with
      participants := s.participants.filter fun p => p.1 ≠ identity
      ended := s.ended ++ [.participant p.2] }

/-- `_fail`, up to where it waits. -/
def fail (reason : CloseReason) : RoomSession :=
  { s with state := .failed, reason := some reason }

/-- The deadline of the join passes: the attempt is abandoned. -/
def abandon : RoomSession :=
  let s := { s with leavePending := true, abandoned := .attached, join := .done }
  if s.state = .joining then
    { s.fail .joinTimedOut with failures := s.failures ++ [.joinTimedOut] }
  else s

/-- The attempt succeeded: the room connection opens, and is accepted, with the participants that
are in the room, or refused, and then closed by the session. -/
def openRoom (accepted : Bool) (present : List (String × Option Bool)) : RoomSession :=
  let s := { s with state := .opened, connection := true, join := .done }
  if accepted then
    present.foldl (fun s p => s.addParticipant p.1 p.2)
      { s with registered := true, opened := s.opened ++ [.room] }
  else { s with closing := some .scheduled }

/-- `_run_join` goes on: the attempt has settled, or the deadline has passed. -/
def joinWakes (accepted : Bool) (present : List (String × Option Bool)) : RoomSession :=
  if !s.attemptDone then s.abandon
  else if s.state ≠ .joining then { s.startLeave with join := .leaving false }
  else if s.attempt = .failed then
    { (s.fail .joinRefused).startLeave with join := .leaving true }
  else s.openRoom accepted present

def held : List Conn := s.opened.filter fun c => c ∉ s.ended

def tearDown : RoomSession :=
  { s with
    tornDown := true
    closing := some .scheduled
    ended := s.ended ++ (s.held.filter (· ≠ Conn.room) ++ [.room]) }

def beginClose : RoomSession :=
  if s.connectionClosed then { s with closing := none }
  else { s with connectionClosed := true, closing := some .stopping }

def closeStopped : RoomSession :=
  let s' := { s with connection := false, participants := [] }
  if s.participants = [] then { s' with closing := none }.finish .sessionEnded .session
  else { s' with closing := some .participants }

/-- The media has stopped for a `_finish`, by when there are no participants. -/
def finishStopped (finisher : Finisher) : RoomSession :=
  { s.startLeave with connection := false, finishing := some (finisher, .leaving) }

end RoomSession

/-! ### Runs -/

/-- What happens next. -/
inductive RoomSession.Label where
  | joinBegins
  | attemptBegins
  | connects
  | attemptEnds (succeeded : Bool)
  | joinWakes (accepted : Bool) (present : List (String × Option Bool))
  | joinLeft
  | abandonedSettled
  | abandonedLeaves
  | abandonedLeft
  | leave
  | retire
  | lost
  | lossHandled
  | finishStopped
  | finishLeft
  | sessionCloses
  | closeBegins
  | closeStopped
  | participantsClosed
  | participantJoined (identity : String) (accepted : Option Bool)
  | participantLeft (identity : String)
  | leaveEnds (i : ℕ)
  deriving DecidableEq

def RoomSession.next (s : RoomSession) : RoomSession.Label → Option RoomSession
  | .joinBegins => if s.join = .created then some { s with join := .waiting } else none
  | .attemptBegins =>
    if s.join ≠ .created ∧ s.attempt = .created then some { s with attempt := .connecting }
    else none
  | .connects =>
    if s.attempt = .connecting then some { s with attempt := .publishing } else none
  | .attemptEnds succeeded =>
    if succeeded then
      if s.attempt = .publishing then some { s with attempt := .succeeded } else none
    else if s.attempt = .connecting ∨ s.attempt = .publishing then
      some { s with attempt := .failed }
    else none
  | .joinWakes accepted present =>
    if s.join = .waiting then some (s.joinWakes accepted present) else none
  | .joinLeft =>
    match s.join with
    | .leaving failed => some { s with
        join := .done
        failures := if failed then s.failures ++ [.joinRefused] else s.failures }
    | _ => none
  | .abandonedSettled =>
    if s.abandoned = .attached ∧ s.attemptDone then some { s with abandoned := .created }
    else none
  | .abandonedLeaves =>
    if s.abandoned = .created then some { s.startLeave with abandoned := .leaving } else none
  | .abandonedLeft =>
    if s.abandoned = .leaving then some { s with abandoned := .done, leavePending := false }
    else none
  | .leave => some (s.finish .left .caller)
  | .retire => some (s.finish .sessionEnded .caller)
  | .lost =>
    -- the room is connected once the connect has returned, and is lost once
    if s.lost ∨ s.attempt = .created ∨ s.attempt = .connecting then none
    else
      let lost := { s with lost := true }
      some (if s.state = .opened then { lost with lossTasks := s.lossTasks + 1 } else lost)
  | .lossHandled =>
    if s.lossTasks = 0 then none
    else some ({ s with lossTasks := s.lossTasks - 1 }.finish .roomLost .loss)
  | .finishStopped =>
    match s.finishing with
    | some (finisher, .stopping) => some (s.finishStopped finisher)
    | _ => none
  | .finishLeft =>
    match s.finishing with
    | some (_, .leaving) => some { s with finishing := none }
    | _ => none
  | .sessionCloses => if .room ∈ s.held ∧ s.tornDown = false then some s.tearDown else none
  | .closeBegins => if s.closing = some .scheduled then some s.beginClose else none
  | .closeStopped => if s.closing = some .stopping then some s.closeStopped else none
  | .participantsClosed =>
    if s.closing = some .participants then
      some ({ s with closing := none }.finish .sessionEnded .session)
    else none
  | .participantJoined identity accepted =>
    -- the session refuses everyone once it closes
    if s.tornDown ∧ accepted = some true then none else some (s.addParticipant identity accepted)
  | .participantLeft identity => some (s.removeParticipant identity)
  | .leaveEnds i =>
    if s.leaves[i]? = some false then some { s with leaves := s.leaves.set i true } else none

/-- A room connection that was started. -/
def roomSession : TransitionSystem RoomSession RoomSession.Label where
  init := {}
  step := RoomSession.next

attribute [local simp] RoomSession.next

end ReactorRuntime.LiveKit
