import Mathlib.Data.Nat.Notation
import Mathlib.Data.Int.Notation

/-!
# The messages of the model server's protocol

The messages of `model_server/protocol.py` and the exceptions of `model_server/errors.py` that the
model server answers with.  A message carries the request and the output as the objects
themselves, so both are type parameters.  `failure` is the identity here: what an exception looks
like after pickling does not matter to who is answered, and when.
-/

namespace ReactorRuntime.ModelServer

/-- A reading of the monotonic clock, or a difference of two, in ticks of any fixed length. -/
abbrev Time := ℤ

/-- An exception a call into the model raised: the name of its type, and its text. -/
structure Raised where
  typeName : String
  text : String
  deriving DecidableEq, Repr

/-- How the server prints an exception: `{type(exc).__name__}: {exc}`. -/
def Raised.describe (exc : Raised) : String := exc.typeName ++ ": " ++ exc.text

/-- The exceptions an answer carries, by class. -/
inductive Fault where
  | modelServerStopping (message : String)
  | modelServerRejected (message : String)
  | stepStillRunning (message : String)
  | resetRequired (message : String)
  | stepExpired (message : String)
  | runtimeError (message : String)
  /-- An exception of the model, as itself. -/
  | model (exc : Raised)
  | batchFailed (cause : Fault)
  deriving DecidableEq, Repr

/-- The version of the exchange. -/
def PROTOCOL : ℕ := 1

/-- A session's first message: the slot it serves, and the protocol it speaks. -/
structure Hello where
  slot : ℤ
  protocol : ℕ := PROTOCOL
  deriving DecidableEq, Repr

/-- Why a hello in another protocol is refused, or `none` for one in this protocol. -/
def checkHello (hello : Hello) : Option String :=
  if hello.protocol ≠ PROTOCOL then
    some ("the session speaks model server protocol " ++ toString hello.protocol ++
      " and the model server speaks " ++ toString PROTOCOL ++
      ": run both halves from the same reactor-runtime")
  else none

/-- One request for the model's next step. -/
structure Step (Payload : Type*) where
  requestId : ℕ
  timeout : Option Time
  payload : Payload

/-- The messages a session sends after its hello. -/
inductive ToModelServer (Payload : Type*) where
  | step (step : Step Payload)
  | cancel (requestId : ℕ)
  | signal (signal : Payload)
  | reset (requestId : ℕ) (sessionId : Option String)

/-- The messages the model server sends. -/
inductive ToSession (Output : Type*) where
  | welcome (slot generation maxBatch : ℕ)
  | refused (reason : String)
  | result (requestId : ℕ) (output : Output)
  | failed (requestId : ℕ) (error : Fault)
  | resetDone (requestId generation : ℕ)
  deriving DecidableEq

/-- The request a message answers; `none` for the two messages that open or refuse a session. -/
def ToSession.requestId? {Output : Type*} : ToSession Output → Option ℕ
  | welcome _ _ _ => none
  | refused _ => none
  | result requestId _ => some requestId
  | failed requestId _ => some requestId
  | resetDone requestId _ => some requestId

def failure {Output : Type*} (requestId : ℕ) (exc : Fault) : ToSession Output :=
  .failed requestId exc

/-- What the model produced for one request: a value, or an exception in its place. -/
inductive Outcome (Output : Type*) where
  | value (output : Output)
  | error (exc : Fault)

/-- The answer to a request from its outcome (`_outcome`): an exception becomes a failure. -/
def Outcome.answer {Output : Type*} (requestId : ℕ) : Outcome Output → ToSession Output
  | value output => .result requestId output
  | error exc => failure requestId exc

@[simp] theorem requestId?_failure {Output : Type*} (requestId : ℕ) (exc : Fault) :
    (failure requestId exc : ToSession Output).requestId? = some requestId := rfl

end ReactorRuntime.ModelServer
