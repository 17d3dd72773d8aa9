import ReactorRuntime.ModelServer.Batching

/-!
# A session's connection on the model server

`Connection` of `model_server/connection.py`: the state machine of a connection, its bounded
outbox, and the thread that writes the outbox to the link.  The reader thread of the connection
belongs to the server (`_read_loop`), but what it holds is its connection's alone, so its place in
the loop is kept here too.

`History` is not in the source.  It records what happened on the connection so far, so that the
theorems can speak about whole runs; no operation reads it.
-/

namespace ReactorRuntime.ModelServer

/-! ### The state machine -/

/-- Where a connection is in its life on the model server (`OPEN` is `opened`). -/
inductive ConnectionState where
  | connecting
  | opening
  | opened
  | closing
  | closed
  deriving DecidableEq, Repr

/-- The moves the sequence allows from a state (`_MOVES`). -/
def ConnectionState.moves : ConnectionState → List ConnectionState
  | connecting => [opening, closing]
  | opening => [opened, closing]
  | opened => [opened, closing]
  | closing => [closed]
  | closed => []

/-! ### What a connection holds -/

/-- How many answers may wait for a session to read them before it is closed. -/
def DEFAULT_OUTBOX : ℕ := 64

/-- What a batch hands to `step()` for one session. -/
structure ServerRequest (Payload : Type*) where
  slot : ℕ
  generation : ℕ
  payload : Payload
  sessionId : Option String
  deriving DecidableEq

/-- An entry of the outbox: a message, or the mark after which the writer closes the link. -/
inductive OutboxItem (Output : Type*) where
  | message (message : ToSession Output)
  | flush

inductive Reader where
  /-- No reader runs: the number is not given out, or the connection was closed at once. -/
  | absent
  /-- Waiting for the hello. -/
  | hello
  /-- Receiving the session's messages. -/
  | active
  /-- Out of the loop, with the leave still to be queued. -/
  | leaving
  | ended
  deriving DecidableEq, Repr

/-- A message as it was posted: the connection's slot and generation at that moment, and the
request that produced it when it is the outcome of a step. -/
structure Posted (Payload Output : Type*) where
  message : ToSession Output
  slot : Option ℕ
  generation : ℕ
  producer : Option (ServerRequest Payload)
  deriving DecidableEq

/-- What happened on a connection so far. -/
structure History (Payload Output : Type*) where
  /-- The messages that entered the outbox. -/
  posted : List (Posted Payload Output) := []
  /-- The ids of the steps and resets received. -/
  received : List ℕ := []
  /-- The ids of the resets received. -/
  resets : List ℕ := []
  /-- The ids of the steps that were accepted. -/
  accepted : List ℕ := []
  /-- The ids of the accepted steps that a cancel withdrew. -/
  withdrawn : List ℕ := []
  /-- Whether an answer ever found the outbox full. -/
  overflowed : Bool := false

/-- One session runtime's link on the model server, with its state, slot and outbox. -/
structure Connection (Payload Output : Type*) where
  state : ConnectionState := .connecting
  slot : Option ℕ := none
  generation : ℕ := 0
  sessionId : Option String := none
  outbox : List (OutboxItem Output) := []
  /-- Whether the writer thread runs. -/
  writing : Bool := true
  linkClosed : Bool := false
  /-- What the writer sent on the link. -/
  wire : List (ToSession Output) := []
  reader : Reader := .absent
  /-- Refusals the reader thread still has to post, after it released the server's lock. -/
  replies : List (ToSession Output) := []
  history : History Payload Output := {}

variable {Payload Output : Type*}

namespace Connection

/-! ### Moving, posting, closing -/

/-- Move to a state; `none` where the source raises `ConnectionMoveError`. -/
def move (connection : Connection Payload Output) (state : ConnectionState) :
    Option (Connection Payload Output) :=
  if state ∈ connection.state.moves then some { connection with state } else none

/-- Put a message in the outbox. -/
def enqueue (connection : Connection Payload Output) (message : ToSession Output)
    (producer : Option (ServerRequest Payload)) : Connection Payload Output :=
  { connection with
    outbox := connection.outbox ++ [.message message]
    history := { connection.history with
      posted := connection.history.posted ++
        [⟨message, connection.slot, connection.generation, producer⟩] } }

/-- Queue a message for the session without waiting; `none` if the outbox is full.  A closed
connection takes nothing, and the source answers `True`. -/
def post (connection : Connection Payload Output) (message : ToSession Output)
    (producer : Option (ServerRequest Payload) := none) : Option (Connection Payload Output) :=
  if connection.state = .closed then some connection
  else if DEFAULT_OUTBOX ≤ connection.outbox.length then none
  else some (connection.enqueue message producer)

/-- Post an answer; a session whose outbox is full stopped reading, and its link is closed
(`_answer`). -/
def answer (connection : Connection Payload Output) (message : ToSession Output)
    (producer : Option (ServerRequest Payload) := none) : Connection Payload Output :=
  match connection.post message producer with
  | some posted => posted
  | none => { connection with
      linkClosed := true
      history := { connection.history with overflowed := true } }

/-- Post a message whose loss nobody minds. -/
def offer (connection : Connection Payload Output) (message : ToSession Output) :
    Connection Payload Output :=
  (connection.post message).getD connection

/-- Ask the writer to send what the outbox holds and close the link; with the outbox full the
link is closed at once. -/
def close (connection : Connection Payload Output) : Connection Payload Output :=
  if DEFAULT_OUTBOX ≤ connection.outbox.length then { connection with linkClosed := true }
  else { connection with outbox := connection.outbox ++ [.flush] }

/-! ### The writer thread -/

/-- What the link does with one message: it is sent, the link cannot carry it (nothing was sent),
or the link is gone. -/
inductive SendOutcome where
  | sent
  | refused (exc : Fault)
  | gone
  deriving DecidableEq, Repr

/-- Send one message (`_send`): a result the link cannot carry fails its request instead. The
`Bool` is whether the writer goes on. -/
def send (message : ToSession Output) (outcome : SendOutcome) : List (ToSession Output) × Bool :=
  match outcome, message with
  | .sent, message => ([message], true)
  | .refused exc, .result requestId _ => ([failure requestId exc], true)
  | .refused _, _ => ([], false)
  | .gone, _ => ([], false)

/-- One turn of the writer thread (`_write`); `none` when it has nothing to do. -/
def write (connection : Connection Payload Output) (outcome : SendOutcome) :
    Option (Connection Payload Output) :=
  match connection.writing, connection.outbox with
  | false, _ => none
  | true, [] => none
  | true, .flush :: outbox => some { connection with outbox, writing := false, linkClosed := true }
  | true, .message message :: outbox =>
    let (sent, goesOn) := send message outcome
    some { connection with
      outbox
      wire := connection.wire ++ sent
      writing := goesOn
      linkClosed := connection.linkClosed || !goesOn }

/-! ### What an operation leaves as it is -/

theorem move_eq_some {k moved : Connection Payload Output} {state : ConnectionState} :
    k.move state = some moved ↔ state ∈ k.state.moves ∧ moved = { k with state } := by
  unfold move
  split_ifs with h
  · simp [h, eq_comm]
  · simp [h]

variable (k : Connection Payload Output) (message : ToSession Output)
  (producer : Option (ServerRequest Payload))

theorem answer_eq : k.answer message producer =
    if k.state = .closed then k
    else if DEFAULT_OUTBOX ≤ k.outbox.length then
      { k with linkClosed := true, history := { k.history with overflowed := true } }
    else k.enqueue message producer := by
  unfold answer post
  split_ifs <;> rfl

theorem offer_eq : k.offer message =
    if k.state = .closed ∨ DEFAULT_OUTBOX ≤ k.outbox.length then k
    else k.enqueue message none := by
  unfold offer post
  by_cases h : k.state = .closed
  · simp [h]
  · by_cases h' : DEFAULT_OUTBOX ≤ k.outbox.length
    · rw [if_neg h, if_pos h', if_pos (.inr h'), Option.getD_none]
    · rw [if_neg h, if_neg h', if_neg (by simp [h, h']), Option.getD_some]

@[simp] theorem state_answer : (k.answer message producer).state = k.state := by
  rw [answer_eq]; split_ifs <;> rfl

@[simp] theorem slot_answer : (k.answer message producer).slot = k.slot := by
  rw [answer_eq]; split_ifs <;> rfl

@[simp] theorem generation_answer : (k.answer message producer).generation = k.generation := by
  rw [answer_eq]; split_ifs <;> rfl

@[simp] theorem reader_answer : (k.answer message producer).reader = k.reader := by
  rw [answer_eq]; split_ifs <;> rfl

@[simp] theorem replies_answer : (k.answer message producer).replies = k.replies := by
  rw [answer_eq]; split_ifs <;> rfl

@[simp] theorem received_answer :
    (k.answer message producer).history.received = k.history.received := by
  rw [answer_eq]; split_ifs <;> rfl

@[simp] theorem resets_answer : (k.answer message producer).history.resets = k.history.resets := by
  rw [answer_eq]; split_ifs <;> rfl

@[simp] theorem accepted_answer :
    (k.answer message producer).history.accepted = k.history.accepted := by
  rw [answer_eq]; split_ifs <;> rfl

@[simp] theorem withdrawn_answer :
    (k.answer message producer).history.withdrawn = k.history.withdrawn := by
  rw [answer_eq]; split_ifs <;> rfl

@[simp] theorem state_offer : (k.offer message).state = k.state := by
  rw [offer_eq]; split_ifs <;> rfl

@[simp] theorem slot_offer : (k.offer message).slot = k.slot := by
  rw [offer_eq]; split_ifs <;> rfl

@[simp] theorem generation_offer : (k.offer message).generation = k.generation := by
  rw [offer_eq]; split_ifs <;> rfl

@[simp] theorem reader_offer : (k.offer message).reader = k.reader := by
  rw [offer_eq]; split_ifs <;> rfl

@[simp] theorem state_close : k.close.state = k.state := by
  unfold close; split_ifs <;> rfl

@[simp] theorem slot_close : k.close.slot = k.slot := by
  unfold close; split_ifs <;> rfl

@[simp] theorem generation_close : k.close.generation = k.generation := by
  unfold close; split_ifs <;> rfl

@[simp] theorem reader_close : k.close.reader = k.reader := by
  unfold close; split_ifs <;> rfl

@[simp] theorem replies_close : k.close.replies = k.replies := by
  unfold close; split_ifs <;> rfl

@[simp] theorem history_close : k.close.history = k.history := by
  unfold close; split_ifs <;> rfl

theorem write_eq_some {k written : Connection Payload Output} {outcome : SendOutcome}
    (h : k.write outcome = some written) :
    ∃ item outbox sent writing linkClosed, k.outbox = item :: outbox ∧
      (sent = [] ∨ ∃ message, item = .message message ∧ sent = (send message outcome).1) ∧
      written = { k with outbox, wire := k.wire ++ sent, writing, linkClosed } := by
  unfold write at h
  split at h
  · cases h
  · cases h
  · next item outbox hw hout =>
    cases h
    exact ⟨_, outbox, [], false, true, hout, .inl rfl, by simp⟩
  · next message outbox hw hout =>
    cases h
    exact ⟨_, _, _, _, _, hout, .inr ⟨message, rfl, rfl⟩, rfl⟩

end Connection

end ReactorRuntime.ModelServer
