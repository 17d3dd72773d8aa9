import Mathlib.Data.Nat.Notation

/-!
# How a failure crosses the link

`failure` and `error_of` of `model_server/protocol.py`, with `portable_pickle` of
`distributed/rank.py`.  An operation is `none` where it raises.

`E` is the type of the exceptions of the classes that are not modelled, `O` that of the objects that
are no exceptions, and `B` that of pickles.  What their classes, their `__str__` and their pickling
do is a parameter, and may be anything; `loads` is what `pickle.loads` does in the model server's
process, and `loadsThere` what it does in the session's.
-/

namespace ReactorRuntime.ModelServer.Failures

/-- A Python object: an exception, or something else. -/
inductive Obj (E O : Type) where
  | raised (exc : E)
  | runtimeError (text : List Char)
  | modelServerError (text : List Char)
  | batchFailed (cause : Obj E O)
  | other (obj : O)

/-- What an exception is an instance of: of `BatchFailed` with a cause, of another subclass of
`Exception`, or only of `BaseException`. -/
inductive Kind (E O : Type) where
  | batch (cause : Obj E O)
  | ordinary
  | bare

/-- The classes of a process, and its `pickle`. -/
structure Process (E O B : Type) where
  kind : E → Kind E O
  /-- `__module__`, `__qualname__` and `__name__` of an exception's class. -/
  moduleName : E → List Char
  qualname : E → List Char
  className : E → List Char
  otherModule : O → List Char
  otherQualname : O → List Char
  otherName : O → List Char
  str : E → Option (List Char)
  otherStr : O → Option (List Char)
  dumps : Obj E O → Option B
  size : B → ℕ
  loads : B → Option (Obj E O)
  loadsThere : B → Option (Obj E O)

variable {E O B : Type} (process : Process E O B)

/-! ### Classes -/

def isBaseException : Obj E O → Bool
  | .other _ => false
  | _ => true

def isException : Obj E O → Bool
  | .raised exc => match process.kind exc with
    | .bare => false
    | _ => true
  | .other _ => false
  | _ => true

/-- The cause of an instance of `BatchFailed`; `none` for any other object. -/
def batchCause : Obj E O → Option (Obj E O)
  | .raised exc => match process.kind exc with
    | .batch cause => some cause
    | _ => none
  | .batchFailed cause => some cause
  | _ => none

def typeName : Obj E O → List Char
  | .raised exc => process.className exc
  | .runtimeError _ => "RuntimeError".toList
  | .modelServerError _ => "ModelServerError".toList
  | .batchFailed _ => "BatchFailed".toList
  | .other obj => process.otherName obj

/-- `f"{kind.__module__}.{kind.__qualname__}"` of the type of an object. -/
def qualifiedName : Obj E O → List Char
  | .raised exc => process.moduleName exc ++ ".".toList ++ process.qualname exc
  | .runtimeError _ => "builtins.RuntimeError".toList
  | .modelServerError _ => "reactor_runtime.model_server.errors.ModelServerError".toList
  | .batchFailed _ => "reactor_runtime.model_server.errors.BatchFailed".toList
  | .other obj => process.otherModule obj ++ ".".toList ++ process.otherQualname obj

def str : Obj E O → Option (List Char)
  | .raised exc => process.str exc
  | .runtimeError text => some text
  | .modelServerError text => some text
  | .batchFailed cause => do
    let text ← str cause
    some ("step() raised for the whole batch: ".toList ++ typeName process cause ++ ": ".toList ++
      text)
  | .other obj => process.otherStr obj

/-! ### The model server's side -/

def FAILURE_LIMIT : ℕ := 65536

def DESCRIPTION_LIMIT : ℕ := 4096

def textOf (exc : Obj E O) : List Char := (str process exc).getD "<unprintable>".toList

def describe (exc : Obj E O) : List Char :=
  let description := qualifiedName process exc ++ ": ".toList ++ textOf process exc
  if DESCRIPTION_LIMIT < description.length then
    description.take (DESCRIPTION_LIMIT - 3) ++ "...".toList
  else description

/-- What `portable_pickle` sends in place of an exception: the exception itself, or a
`RuntimeError`. -/
inductive Carried where
  | itself
  | standIn (text : List Char)
  deriving DecidableEq

/-- The text of a stand-in; another, if the exception itself is sent. -/
def Carried.textOr (description : List Char) : Carried → List Char
  | .itself => description
  | .standIn text => text

def standIn (text : List Char) : Option (Carried × B) := do
  let blob ← process.dumps (.runtimeError text)
  some (.standIn text, blob)

/-- The body of the `try` of `portable_pickle`. -/
def tryPickle (exc : Obj E O) (limit : Option ℕ) (text : List Char) : Option (Carried × B) := do
  let blob ← process.dumps exc
  if limit.any (· < process.size blob) then
    standIn process (text ++ " (too large to send whole)".toList)
  else do
    let _ ← process.loads blob
    some (.itself, blob)

def portablePickle (exc : Obj E O) (limit : Option ℕ) (text : List Char) : Option (Carried × B) :=
  tryPickle process exc limit text <|> standIn process text

structure Failed (B : Type) where
  requestId : ℕ
  error : B
  description : List Char
  batch : Bool := false

def batchFailure (requestId : ℕ) (exc cause : Obj E O) : Option (Failed B) := do
  let description := describe process cause
  let exc := if isException process cause then exc else .batchFailed (.runtimeError description)
  let carried ← portablePickle process exc (some FAILURE_LIMIT) description
  if carried.1 = .itself then some ⟨requestId, carried.2, description, true⟩
  else do
    let carried ← portablePickle process cause (some FAILURE_LIMIT) description
    let standIn := .runtimeError (carried.1.textOr description)
    let carried ← portablePickle process (.batchFailed standIn) none description
    some ⟨requestId, carried.2, description, true⟩

def tryFailure (requestId : ℕ) (exc : Obj E O) : Option (Failed B) :=
  match batchCause process exc with
  | some cause => batchFailure process requestId exc cause
  | none => do
    let description := describe process exc
    let exc := if isException process exc then exc else .runtimeError description
    let carried ← portablePickle process exc (some FAILURE_LIMIT) description
    some ⟨requestId, carried.2, description, false⟩

def failure (requestId : ℕ) (exc : Obj E O) : Option (Failed B) :=
  tryFailure process requestId exc <|> do
    let description := qualifiedName process exc ++ ": <unprintable>".toList
    let error ← process.dumps (.runtimeError description)
    some ⟨requestId, error, description, (batchCause process exc).isSome⟩

/-! ### The session's side -/

def errorOf (failed : Failed B) : Obj E O :=
  let standIn : Obj E O :=
    if failed.batch then .batchFailed (.modelServerError failed.description)
    else .modelServerError failed.description
  match process.loadsThere failed.error with
  | none => standIn
  | some error =>
    if isBaseException error then
      if failed.batch = true ∧ batchCause process error = none then .batchFailed error else error
    else standIn

end ReactorRuntime.ModelServer.Failures
