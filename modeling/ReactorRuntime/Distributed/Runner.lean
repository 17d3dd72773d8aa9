import ReactorRuntime.TransitionSystem.Basic
import Mathlib.Data.List.Sort

/-!
# A distributed runner and its ranks

A `DistributedRunner` with the processes of its ranks, the queue of requests of each, and the queue
on which all of them answer.  What a rank puts on that queue is sent by a thread of its process, so
it is lost with the process until it was flushed.  A `Generate` names the block that holds the
input, and rank 0's answer the block that holds its result: a reader takes what is there when it
reads.

A step is a call of the runner, a turn of the loop in which it collects messages, or what a rank
does next.  The rest is history: the calls that were broadcast, those that each rank served and what
its worker made of them, the calls that ended, and the errors of `load` that arrived in time.

Left out: the texts of the runner's own errors, how processes are started and killed, blocks that
are replaced by larger ones, and a call whose input cannot be packed, which is not broadcast.
-/

namespace ReactorRuntime.Distributed

/-! ### Exceptions -/

abbrev Class := ℕ

def runtimeError : Class := 0

/-- What a round trip through `pickle` makes of an exception. -/
inductive Pickling where
  | kept
  /-- It is rebuilt as something else, as a `__reduce__` of its own may do. -/
  | rebuilt (cls : Class) (name text : String)
  | fails
  deriving DecidableEq

/-- An exception: its class with its name, what `str` writes for it, and how it pickles. -/
structure Exn where
  cls : Class
  name : String := ""
  text : String := ""
  pickling : Pickling := .kept
  deriving DecidableEq

def portable (e : Exn) : Exn :=
  match e.pickling with
  | .kept | .rebuilt .. => e
  | .fails => { cls := runtimeError, name := "RuntimeError", text := e.name ++ ": " ++ e.text }

/-- An exception that went through a queue. -/
def unpickled (e : Exn) : Exn :=
  match e.pickling with
  | .rebuilt cls name text => { cls, name, text }
  | .kept | .fails => e

/-- What arrives of an exception that a worker raised. -/
def Exn.carried (e : Exn) : Exn := unpickled (portable e)

/-! ### Messages -/

/-- What the runner puts on the queue of a rank. -/
inductive Request where
  | join
  | generate
  | reset
  | shutdown
  deriving DecidableEq

inductive Call (α : Type) where
  | generate (input : α)
  | reset

def Call.request {α : Type} : Call α → Request
  | generate _ => .generate
  | reset => .reset

/-- What a rank puts on the queue of the answers.  `header`: whether an answer names a result. -/
inductive Message where
  | rendezvous
  | loaded (rank : ℕ)
  | answer (rank : ℕ) (header : Bool) (error : Option Exn)
  deriving DecidableEq

namespace Message

def rank : Message → Option ℕ
  | rendezvous => none
  | loaded rank | answer rank _ _ => some rank

def error : Message → Option Exn
  | answer _ _ error => error
  | rendezvous | loaded _ => none

end Message

/-! ### The state -/

inductive RankStage (α : Type) where
  /-- Before the group has a port. -/
  | forming
  | loading
  /-- An exception before `Loaded` was answered. -/
  | failed (e : Exn)
  | ready
  /-- A `Generate` was received, its input not unpacked yet. -/
  | took
  | running (call : Call α)
  | exited

structure Rank (α β : Type) where
  alive : Bool := false
  stage : RankStage α := .forming
  inbox : List Request := []
  /-- What was put on the queue of the answers and not flushed. -/
  sending : List Message := []
  /-- History: the calls that the worker got, and what it made of them. -/
  served : List (Call α) := []
  replies : List (Except Exn β) := []

/-- Where the runner is; `_collect` has its messages. -/
inductive RunnerStage where
  | fresh
  | rendezvous (messages : List Message)
  | starting (messages : List Message)
  | idle
  | calling (messages : List Message)

/-- How a start or a call ends. -/
inductive Outcome (β : Type) where
  | returned (result : Option β)
  | raised (e : Exn)
  /-- `RankDesync`. -/
  | desync
  /-- `WorkerCrashed`. -/
  | crashed (rank : ℕ)
  /-- `WorkerTimeout`. -/
  | timedOut
  /-- A `KeyboardInterrupt`. -/
  | interrupted
  /-- The `RuntimeError` for a message that does not belong to the start. -/
  | unexpected
  deriving DecidableEq

/-- Whether an outcome leaves the group healthy. -/
def Outcome.keeps {β : Type} : Outcome β → Bool
  | returned _ | raised _ => true
  | desync | crashed _ | timedOut | interrupted | unexpected => false

/-- A call that ended, with the ranks that had died and not answered it. -/
structure Ended (β : Type) where
  outcome : Outcome β
  silent : List ℕ
  deriving DecidableEq

structure DistributedRunner (α β : Type) where
  stage : RunnerStage := .fresh
  healthy : Bool := true
  shutdownDone : Bool := false
  ranks : ℕ → Rank α β := fun _ => {}
  outbox : List Message := []
  /-- What the blocks of the input and of the result hold. -/
  input : Option α := none
  result : Option β := none
  /-- History: the calls that were broadcast, and those that ended. -/
  calls : List (Call α) := []
  ended : List (Ended β) := []
  /-- History: how `start` ended, and the errors of `load` that had arrived by then. -/
  startOutcome : Option (Outcome β) := none
  loadErrors : List Exn := []

namespace DistributedRunner

variable {α β : Type} (n : ℕ) (s : DistributedRunner α β)

/-! ### The runner -/

def collected : List Message :=
  match s.stage with
  | .rendezvous messages | .starting messages | .calling messages => messages
  | .fresh | .idle => []

/-- `start`, up to where it collects messages. -/
def start (formsGroup : Bool) : DistributedRunner α β :=
  { s with
    stage := if formsGroup then .rendezvous [] else .starting []
    ranks := fun r => { s.ranks r with
      alive := true
      stage := if formsGroup then .forming else .loading } }

/-- `inbox.put` on the queue of each rank that `p` holds of. -/
def put (p : ℕ → Bool) (request : Request) : DistributedRunner α β :=
  { s with
    ranks := fun r =>
      if p r then { s.ranks r with inbox := (s.ranks r).inbox ++ [request] } else s.ranks r }

def endStart (outcome : Outcome β) : DistributedRunner α β :=
  match outcome with
  | .returned _ => { s with stage := .idle, startOutcome := some outcome }
  | _ => { s with
      stage := .idle, healthy := false, shutdownDone := true, startOutcome := some outcome }

def silent (messages : List Message) : List ℕ :=
  (List.range n).filter fun r =>
    !(s.ranks r).alive && (messages ++ s.outbox).all fun m => m.rank ≠ some r

def endCall (messages : List Message) (outcome : Outcome β) : DistributedRunner α β :=
  { s with
    stage := .idle
    healthy := s.healthy && outcome.keeps
    ended := s.ended ++ [{ outcome, silent := s.silent n messages }] }

/-- What `start` makes of the messages of the ranks. -/
def startVerdict : List Message → Outcome β
  | [] => .returned none
  | .answer _ _ (some e) :: _ => .raised e
  | .loaded _ :: messages => startVerdict messages
  | _ :: _ => .unexpected

def decide (result : Option β) (answers : List Message) : Outcome β :=
  let answers := answers.insertionSort fun a b => a.rank.getD 0 ≤ b.rank.getD 0
  let failed := answers.filterMap Message.error
  match failed with
  | [] =>
    match answers.head? with
    | some (.answer _ true _) => .returned result
    | _ => .returned none
  | e :: others =>
    if failed.length = answers.length ∧ ∀ e' ∈ others, e'.cls = e.cls then .raised e else .desync

/-- The loop of `_collect` goes on with these messages, or ends. -/
def settle (messages : List Message) : DistributedRunner α β :=
  match s.stage with
  | .rendezvous _ =>
    if messages.isEmpty then s
    else
      match messages.findSome? Message.error with
      | some e => s.endStart (.raised e)
      | none =>
        if Message.rendezvous ∈ messages then
          { s.put (fun r => 0 < r) .join with stage := .starting [] }
        else s.endStart .unexpected
  | .starting _ =>
    if messages.length < n then { s with stage := .starting messages }
    else s.endStart (startVerdict messages)
  | .calling _ =>
    if messages.length < n then { s with stage := .calling messages }
    else s.endCall n messages (decide s.result messages)
  | .fresh | .idle => s

/-- `_collect` raises. -/
def giveUp (messages : List Message) (outcome : Outcome β) : DistributedRunner α β :=
  match s.stage with
  | .rendezvous _ | .starting _ => s.endStart outcome
  | .calling _ => s.endCall n messages outcome
  | .fresh | .idle => s

/-- `_check_alive`, and the turn of the loop after it. -/
def checkAlive : DistributedRunner α β :=
  let dead := (List.range n).filter fun r => !(s.ranks r).alive
  if dead.isEmpty then s
  else
    let messages := s.collected ++ s.outbox
    match dead.find? fun r => messages.all fun m => m.rank ≠ some r with
    | some r => { s with outbox := [] }.giveUp n messages (.crashed r)
    | none => { s with outbox := [] }.settle n messages

/-- Whether the runner collects messages. -/
def collecting : Bool :=
  match s.stage with
  | .rendezvous _ | .starting _ | .calling _ => true
  | .fresh | .idle => false

/-- A call that `_require_ready` lets pass, up to where it collects messages. -/
def broadcast (call : Call α) : DistributedRunner α β :=
  { s.put (fun _ => true) call.request with
    stage := .calling []
    input := match call with
      | .generate x => some x
      | .reset => s.input
    calls := s.calls ++ [call] }

/-- Whether `_require_ready` lets a call pass. -/
def isReady : Bool :=
  match s.stage with
  | .idle => s.startOutcome.isSome && !s.shutdownDone && s.healthy
  | _ => false

def shutdown : DistributedRunner α β :=
  let s := if s.healthy then s.put (fun _ => true) .shutdown else s
  { s with shutdownDone := true }

/-! ### The ranks -/

def setRank (r : ℕ) (rank : Rank α β) : DistributedRunner α β :=
  { s with ranks := Function.update s.ranks r rank }

def answer (r : ℕ) (call : Call α) : Except Exn β → Message
  | .ok _ => .answer r (r = 0 && call.request = .generate) none
  | .error e => .answer r false (some e.carried)

/-- What the block of the result holds once a rank answered a call: rank 0 packs its result. -/
def written (r : ℕ) (result : Option β) : Call α → Except Exn β → Option β
  | .generate _, .ok y => if r = 0 then some y else result
  | _, _ => result

end DistributedRunner

/-! ### Runs -/

inductive RankLabel (β : Type) where
  /-- Rank 0 has a port, and puts it. -/
  | rendezvous
  /-- Another rank receives the port. -/
  | joins
  /-- Something raises before `Loaded`. -/
  | fails (e : Exn)
  | loads
  | receives
  /-- The input is unpacked. -/
  | reads
  /-- The worker returns or raises; a result that cannot be packed counts as raised. -/
  | replies (reply : Except Exn β)
  /-- A message that was put reaches the queue. -/
  | flushes
  | dies

/-- What happens next. -/
inductive DistributedRunner.Label (α β : Type) where
  | start
  | call (call : Call α)
  | shutdown
  /-- `outbox.get` returns a message. -/
  | receive
  /-- `outbox.get` raises `Empty`. -/
  | poll
  /-- No time remains. -/
  | deadline
  | interrupt
  | rank (r : ℕ) (l : RankLabel β)

namespace DistributedRunner

variable {α β : Type} (n : ℕ) (s : DistributedRunner α β)

def loadErrorsWith (r : ℕ) (m : Message) : List Exn :=
  match (s.ranks r).stage, s.startOutcome, m.error with
  | .failed e, none, some _ => s.loadErrors ++ [e]
  | _, _, _ => s.loadErrors

/-- The next state, as the rank `r` goes on. -/
def rankNext (r : ℕ) : RankLabel β → Option (DistributedRunner α β)
  | .rendezvous =>
    match (s.ranks r).stage with
    | .forming =>
      if r = 0 then some (s.setRank r { s.ranks r with
        stage := .loading, sending := (s.ranks r).sending ++ [.rendezvous] })
      else none
    | _ => none
  | .joins =>
    match (s.ranks r).stage, (s.ranks r).inbox with
    | .forming, .join :: inbox =>
      if r = 0 then none else some (s.setRank r { s.ranks r with stage := .loading, inbox })
    | _, _ => none
  | .fails e =>
    match (s.ranks r).stage with
    | .forming | .loading => some (s.setRank r { s.ranks r with
        stage := .failed e
        sending := (s.ranks r).sending ++ [.answer r false (some e.carried)] })
    | _ => none
  | .loads =>
    match (s.ranks r).stage with
    | .loading => some (s.setRank r { s.ranks r with
        stage := .ready, sending := (s.ranks r).sending ++ [.loaded r] })
    | _ => none
  | .receives =>
    match (s.ranks r).stage, (s.ranks r).inbox with
    | .ready, .generate :: inbox => some (s.setRank r { s.ranks r with stage := .took, inbox })
    | .ready, .reset :: inbox => some (s.setRank r { s.ranks r with
        stage := .running .reset, inbox, served := (s.ranks r).served ++ [.reset] })
    | .ready, .shutdown :: inbox => some (s.setRank r { s.ranks r with stage := .exited, inbox })
    | .ready, .join :: inbox => some (s.setRank r { s.ranks r with inbox })
    | _, _ => none
  | .reads =>
    match (s.ranks r).stage, s.input with
    | .took, some x => some (s.setRank r { s.ranks r with
        stage := .running (.generate x), served := (s.ranks r).served ++ [.generate x] })
    | _, _ => none
  | .replies reply =>
    match (s.ranks r).stage with
    | .running call => some { s.setRank r { s.ranks r with
        stage := .ready
        sending := (s.ranks r).sending ++ [answer r call reply]
        replies := (s.ranks r).replies ++ [reply] } with
      result := written r s.result call reply }
    | _ => none
  | .flushes =>
    match (s.ranks r).sending with
    | m :: sending => some { s.setRank r { s.ranks r with sending } with
        outbox := s.outbox ++ [m]
        loadErrors := s.loadErrorsWith r m }
    | [] => none
  | .dies => some (s.setRank r { s.ranks r with alive := false, sending := [] })

def next (formsGroup : Bool) : Label α β → Option (DistributedRunner α β)
  | .start =>
    match s.stage with
    | .fresh => if s.shutdownDone then none else some (s.start formsGroup)
    | _ => none
  | .call call => if s.isReady then some (s.broadcast call) else none
  | .shutdown => if s.collecting || s.shutdownDone then none else some s.shutdown
  | .receive =>
    if s.collecting then
      match s.outbox with
      | m :: outbox => some ({ s with outbox }.settle n (s.collected ++ [m]))
      | [] => none
    else none
  | .poll => if s.collecting then some (s.checkAlive n) else none
  | .deadline => if s.collecting then some (s.giveUp n s.collected .timedOut) else none
  | .interrupt => if s.collecting then some (s.giveUp n s.collected .interrupted) else none
  | .rank r l => if r < n ∧ (s.ranks r).alive then s.rankNext r l else none

end DistributedRunner

/-- A runner with `n` ranks, from before its start. -/
def distributedRunner (α β : Type) (n : ℕ) (formsGroup : Bool) :
    TransitionSystem (DistributedRunner α β) (DistributedRunner.Label α β) where
  init := {}
  step s := s.next n formsGroup

attribute [local simp] DistributedRunner.next

end ReactorRuntime.Distributed
