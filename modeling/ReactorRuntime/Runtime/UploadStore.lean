import ReactorRuntime.Interface.TypeSpec
import ReactorRuntime.Lists.Dict
import ReactorRuntime.TransitionSystem.Basic

/-!
# The upload store

`UploadStore` of `upload_store.py`.  Everything runs on one event loop, so a step is what happens
between two suspensions: a call of `create_slot`, of `put` or of `clear`; a `fetch`, up to where it
waits; and what a `fetch` does once it resumes.  The slots and the events are objects, numbered in
the order in which they were made; `_slots` and `_filled` hold their numbers.

`wait_for` gives up in two steps: its timer falls due, and the callback of the timer cancels the
task.  The loop runs what is ready in the order in which it became so: a task that was woken by
then resumes before the callback, so the timer counts only where the task was not woken.

A session ends with the call of `clear`, and the next one begins there.
-/

namespace ReactorRuntime.Runtime

open Interface Lists

abbrev UploadId := String

inductive UploadError where
  | unknownUpload (uploadId : UploadId)
  | uploadAlreadyComplete (uploadId : UploadId)
  | uploadSizeMismatch (message : String)
  | uploadIdTaken (uploadId : UploadId)
  deriving DecidableEq

namespace UploadStore

structure Slot where
  uploadId : UploadId
  name : String
  mimeType : String
  size : ℤ
  data : Option (List UInt8) := none
  /-- History: the session in which the slot was reserved. -/
  session : ℕ
  deriving DecidableEq

/-- What the model sees of a slot that is complete. -/
def Slot.file? (slot : Slot) : Option UploadedFile :=
  slot.data.map fun data => { name := slot.name, mimeType := slot.mimeType, data }

structure Write where
  slot : ℕ
  data : List UInt8
  session : ℕ
  deriving DecidableEq

inductive Progress where
  | waits (event : ℕ)
  /-- What the fetch returned or raised, and the session at that time. -/
  | ended (result : Except UploadError UploadedFile) (session : ℕ)
  deriving DecidableEq

structure Fetch where
  uploadId : UploadId
  progress : Progress
  /-- Whether the timer of the wait has fallen due. -/
  due : Bool := false
  /-- Whether the callback of the timer has cancelled the task. -/
  cancelled : Bool := false
  /-- History: the session in which the fetch began. -/
  began : ℕ
  /-- History: the slot of the id that was written while the fetch waited, its timer not due. -/
  written : Option ℕ := none
  deriving DecidableEq

def Fetch.note (uploadId : UploadId) (i : ℕ) (f : Fetch) : Fetch :=
  match f.progress with
  | .waits _ => if f.uploadId = uploadId ∧ f.due = false then { f with written := some i } else f
  | .ended _ _ => f

structure Store where
  /-- `_slots`. -/
  reserved : List (UploadId × ℕ) := []
  /-- `_filled`. -/
  filled : List (UploadId × ℕ) := []
  slots : List Slot := []
  /-- How many events were made. -/
  events : ℕ := 0
  /-- The events that are set. -/
  signalled : List ℕ := []
  fetches : List Fetch := []
  /-- History: how many sessions have ended. -/
  session : ℕ := 0
  /-- History. -/
  writes : List Write := []
  deriving DecidableEq

/-- What happens. -/
inductive Act where
  /-- A call of `create_slot`, with what `uuid4` gives if it is asked. -/
  | createSlot (minted : UploadId) (name mimeType : String) (size : ℤ) (uploadId : Option UploadId)
  | put (uploadId : UploadId) (data : List UInt8)
  | fetch (uploadId : UploadId) (waitSeconds : ℚ)
  /-- The timer of a fetch falls due. -/
  | due (i : ℕ)
  /-- The callback of the timer runs. -/
  | cancel (i : ℕ)
  | resume (i : ℕ)
  | clear

namespace Store

variable (s : Store)

def slot? (uploadId : UploadId) : Option (ℕ × Slot) := do
  let i ← s.reserved.lookup uploadId
  let slot ← s.slots[i]?
  some (i, slot)

def file? (uploadId : UploadId) : Option UploadedFile :=
  (s.slot? uploadId).bind fun found => found.2.file?

def createSlot (minted : UploadId) (name mimeType : String) (size : ℤ)
    (uploadId : Option UploadId) : Except UploadError (UploadId × Store) :=
  let reserve (id : UploadId) : Store :=
    { s with
      reserved := Dict.set s.reserved id s.slots.length
      slots := s.slots ++ [{ uploadId := id, name, mimeType, size, session := s.session }] }
  match uploadId with
  | none => .ok (minted, reserve minted)
  | some id =>
    if (s.reserved.lookup id).isSome then .error (.uploadIdTaken id) else .ok (id, reserve id)

def writable (uploadId : UploadId) : Except UploadError (ℕ × Slot) :=
  match s.slot? uploadId with
  | none => .error (.unknownUpload uploadId)
  | some (i, slot) =>
    if slot.data.isSome then .error (.uploadAlreadyComplete uploadId) else .ok (i, slot)

def expectedSize (uploadId : UploadId) : Except UploadError ℤ :=
  (s.writable uploadId).map fun found => found.2.size

def waiter (uploadId : UploadId) : ℕ × Store :=
  match s.filled.lookup uploadId with
  | some event => (event, s)
  | none =>
    (s.events,
      { s with filled := Dict.set s.filled uploadId s.events, events := s.events + 1 })

def signal (event : ℕ) : Store := { s with signalled := s.signalled ++ [event] }

def fill (i : ℕ) (slot : Slot) (data : List UInt8) : Store :=
  { s with
    slots := s.slots.set i { slot with data := some data }
    fetches := s.fetches.map fun f => f.note slot.uploadId i
    writes := s.writes ++ [{ slot := i, data, session := s.session }] }

def wake (uploadId : UploadId) : Store := (s.waiter uploadId).2.signal (s.waiter uploadId).1

def put (uploadId : UploadId) (data : List UInt8) : Except UploadError Store :=
  (s.writable uploadId).bind fun found =>
    if data.length = found.2.size then .ok ((s.fill found.1 found.2 data).wake uploadId)
    else .error (.uploadSizeMismatch s!"expected {found.2.size} bytes, got {data.length}")

/-- What a fetch returns or raises once it does not wait any more. -/
def found (uploadId : UploadId) : Except UploadError UploadedFile :=
  match s.file? uploadId with
  | some file => .ok file
  | none => .error (.unknownUpload uploadId)

def begin (uploadId : UploadId) (progress : Progress) : Store :=
  { s with fetches := s.fetches ++ [{ uploadId, progress, began := s.session }] }

def fetch (uploadId : UploadId) (waitSeconds : ℚ) : Store :=
  if (s.file? uploadId).isSome ∨ waitSeconds ≤ 0 then
    s.begin uploadId (.ended (s.found uploadId) s.session)
  else
    let event := (s.waiter uploadId).1
    let s := (s.waiter uploadId).2
    if event ∈ s.signalled then s.begin uploadId (.ended (s.found uploadId) s.session)
    else s.begin uploadId (.waits event)

/-- The timer of a fetch falls due, unless the task was woken before. -/
def fallDue (f : Fetch) : Option Fetch :=
  match f.progress with
  | .waits event => if event ∈ s.signalled then none else some { f with due := true }
  | .ended _ _ => none

def cancel (f : Fetch) : Option Fetch :=
  match f.progress with
  | .waits _ => if f.due then some { f with cancelled := true } else none
  | .ended _ _ => none

/-- `fetch`, from where it waits. -/
def resume (f : Fetch) : Option Fetch :=
  match f.progress with
  | .waits event =>
    if f.cancelled then
      some { f with progress := .ended (.error (.unknownUpload f.uploadId)) s.session }
    else if event ∈ s.signalled then
      some { f with progress := .ended (s.found f.uploadId) s.session }
    else none
  | .ended _ _ => none

def clear : Store :=
  { s with
    reserved := []
    filled := []
    signalled := s.signalled ++ s.filled.map Prod.snd
    session := s.session + 1 }

def move (i : ℕ) (go : Fetch → Option Fetch) : Option Store := do
  let f ← s.fetches[i]?
  let f' ← go f
  some { s with fetches := s.fetches.set i f' }

/-- One step.  A call that raises changes nothing, and `uuid4` gives an id that is not in use. -/
def step : Act → Option Store
  | .createSlot minted name mimeType size uploadId =>
    if uploadId = none ∧ (s.reserved.lookup minted).isSome then none
    else
      match s.createSlot minted name mimeType size uploadId with
      | .ok created => some created.2
      | .error _ => some s
  | .put uploadId data => some ((s.put uploadId data).toOption.getD s)
  | .fetch uploadId waitSeconds => some (s.fetch uploadId waitSeconds)
  | .due i => s.move i s.fallDue
  | .cancel i => s.move i cancel
  | .resume i => s.move i s.resume
  | .clear => some s.clear

end Store

end UploadStore

def uploadStore : TransitionSystem UploadStore.Store UploadStore.Act where
  init := {}
  step := UploadStore.Store.step

end ReactorRuntime.Runtime
