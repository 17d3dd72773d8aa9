import ReactorRuntime.TransitionSystem.Basic
import ReactorRuntime.SharedMemory.Slot

/-!
# The link of a session in shared memory

`link` is the transition system of one session's link: `ModelClient.step` and `_cancel` of
`model_server/client.py` over `ShmLink.send` and `_send_cancel` of `model_server/shm_link.py`, with
the directory both ends see, the stream of headers, and the model server's end in
`ShmLink.receive`.

Each step of the client is one buffer written, one block created or removed, or one frame sent, and
each step of the model server is one frame read, one block attached to, or one span copied, so the
two ends interleave anywhere.  A frame that passes the limit is refused before it is sent.  Other
messages travel whole in their frame; of these only that they were sent is kept.  The link stays
open: neither end closes it, and the socket does not fail.

`packed`, `cancelled`, `delivered` and `skipped` are not in the source.  They record what was sent
and received, for the theorems.
-/

namespace ReactorRuntime.SharedMemory

/-! ### What the two ends hold -/

inductive Frame where
  /-- A step, its arrays described by the header. -/
  | step (requestId : ℕ) (header : Header)
  | cancel (requestId : ℕ)
  /-- Any other message. -/
  | other
  deriving DecidableEq, Repr

/-- Where the client is. -/
inductive Caller where
  /-- Between two calls of `step()`. -/
  | idle
  /-- Between two calls of `step()`, the last of which timed out without its cancel being sent. -/
  | gaveUp
  /-- In `pack`, with the buffers of the request, and those not handed out yet. -/
  | packing (requestId : ℕ) (buffers rest : List Bytes) (packing : Packing)
  /-- Waiting for the answer. -/
  | waiting (requestId : ℕ)
  /-- The wait timed out. -/
  | timedOut (requestId : ℕ)
  /-- In `_send_cancel`, with the retired block released. -/
  | allocating (requestId : ℕ)
  /-- In `_send_cancel`, with the replacement allocated. -/
  | replacing (requestId : ℕ) (replacement : SharedSlot)
  deriving DecidableEq, Repr

/-- Where the model server's end is in `receive`. -/
inductive Reader where
  /-- Waiting for a frame. -/
  | idle
  /-- About to attach to the block a header names. -/
  | attaching (requestId : ℕ) (header : Header)
  /-- Copying spans, with those copied and those left. -/
  | copying (requestId : ℕ) (header : Header) (copied : List Bytes) (rest : List Span)
  /-- A span ended past the block, and the link is being closed. -/
  | failed
  deriving DecidableEq, Repr

structure Link where
  /-- The files and pages of the directory both ends see. -/
  blocks : Blocks
  basePrefix : String
  writer : SharedSlot
  retired : Option SharedSlot := none
  rotations : ℕ := 0
  caller : Caller := .idle
  /-- The next request id. -/
  ids : ℕ := 0
  stream : List Frame := []
  reader : Reader := .idle
  /-- The block the model server's end has mapped. -/
  mapped : Option String := none
  /-- The arrays that were packed for a step that was sent. -/
  packed : ℕ → Option (List Bytes) := fun _ => none
  /-- The steps a cancel was sent for. -/
  cancelled : List ℕ := []
  /-- The steps the model server received, with their arrays. -/
  delivered : List (ℕ × List Bytes) := []
  /-- The steps the model server skipped. -/
  skipped : List ℕ := []

/-- A step of one of the two ends. -/
inductive Label where
  /-- `step()` is called with a request that holds these buffers. -/
  | step (buffers : List Bytes)
  /-- Pickle hands out the next buffer. -/
  | write
  /-- The header of the step is sent, if it fits a frame. -/
  | send (fits : Bool)
  | answer
  | timeout
  /-- The block a previous cancel retired is released. -/
  | release
  /-- The replacement block is allocated, if there is room. -/
  | allocate (room : Bool)
  /-- The cancel is sent, and the link moves to the replacement. -/
  | cancel
  /-- Another message is sent. -/
  | other
  /-- The model server's end goes on. -/
  | receive
  deriving DecidableEq, Repr

namespace Link

/-! ### The client's end -/

def beginStep (s : Link) (buffers : List Bytes) : Link :=
  { s with
    ids := s.ids + 1
    writer := s.writer.begin
    caller := .packing s.ids buffers buffers {} }

/-- One buffer of the step is handed out.  A request block never grows. -/
def writeBuffer (s : Link) (requestId : ℕ) (buffers : List Bytes) (buffer : Bytes)
    (rest : List Bytes) (packing : Packing) : Link :=
  match packing.outOfBand (fun _ _ => false) buffer s.writer s.blocks with
  | (.ok packing, writer, blocks) =>
    { s with writer, blocks, caller := .packing requestId buffers rest packing }
  | (.error _, writer, blocks) => { s with writer, blocks, caller := .idle }

def enqueueStep (s : Link) (requestId : ℕ) (buffers : List Bytes) (header : Header) : Link :=
  { s with
    stream := s.stream ++ [.step requestId header]
    packed := Function.update s.packed requestId (some buffers)
    caller := .waiting requestId }

/-- Send the header of the step, or refuse it with `PayloadTooLarge`. -/
def sendStep (s : Link) (requestId : ℕ) (buffers : List Bytes) (packing : Packing) (fits : Bool) :
    Link :=
  match packing.header s.writer with
  | .error _ => { s with caller := .idle }
  | .ok header =>
    if fits then s.enqueueStep requestId buffers header else { s with caller := .idle }

def releaseRetired (s : Link) (requestId : ℕ) : Link :=
  { s with
    blocks := match s.retired with
      | some retired => retired.close s.blocks
      | none => s.blocks
    retired := none
    caller := .allocating requestId }

/-- Allocate the replacement; when that fails the cancel is not sent, which `_cancel` logs. -/
def allocateReplacement (s : Link) (requestId : ℕ) (room : Bool) : Link :=
  let rotations := s.rotations + 1
  if room then
    let replacement := SharedSlot.fixed (s.basePrefix ++ "r" ++ toString rotations ++ "_")
      s.writer.capacity
    { s with
      rotations
      blocks := s.blocks.create replacement.name replacement.capacity
      caller := .replacing requestId replacement }
  else { s with rotations, caller := .gaveUp }

def sendCancel (s : Link) (requestId : ℕ) (replacement : SharedSlot) : Link :=
  { s with
    stream := s.stream ++ [.cancel requestId]
    cancelled := s.cancelled ++ [requestId]
    retired := some s.writer
    writer := replacement
    caller := .idle }

def call (s : Link) : Label → Option Link
  | .step buffers =>
    match s.caller with
    | .idle | .gaveUp => some (s.beginStep buffers)
    | _ => none
  | .write =>
    match s.caller with
    | .packing requestId buffers (buffer :: rest) packing =>
      some (s.writeBuffer requestId buffers buffer rest packing)
    | _ => none
  | .send fits =>
    match s.caller with
    | .packing requestId buffers [] packing => some (s.sendStep requestId buffers packing fits)
    | _ => none
  | .answer =>
    -- the model server answers only steps it received
    match s.caller with
    | .waiting requestId =>
      if ∃ d ∈ s.delivered, d.1 = requestId then some { s with caller := .idle } else none
    | _ => none
  | .timeout =>
    match s.caller with
    | .waiting requestId => some { s with caller := .timedOut requestId }
    | _ => none
  | .release =>
    match s.caller with
    | .timedOut requestId => some (s.releaseRetired requestId)
    | _ => none
  | .allocate room =>
    match s.caller with
    | .allocating requestId => some (s.allocateReplacement requestId room)
    | _ => none
  | .cancel =>
    match s.caller with
    | .replacing requestId replacement => some (s.sendCancel requestId replacement)
    | _ => none
  | .other =>
    -- another thread sends while the link's lock is free
    match s.caller with
    | .packing _ _ _ _ | .allocating _ | .replacing _ _ => none
    | _ => some { s with stream := s.stream ++ [.other] }
  | .receive => none

/-! ### The model server's end -/

/-- Attach to the block a header names (`SlotReader.attach`); a step whose block is gone is
skipped. -/
def attach (s : Link) (requestId : ℕ) (header : Header) : Link :=
  if s.mapped = some header.name then
    { s with reader := .copying requestId header [] header.spans }
  else if s.blocks.linked header.name then
    { s with mapped := some header.name, reader := .copying requestId header [] header.spans }
  else { s with mapped := none, reader := .idle, skipped := s.skipped ++ [requestId] }

def deliver (s : Link) (requestId : ℕ) (arrays : List Bytes) : Link :=
  { s with reader := .idle, delivered := s.delivered ++ [(requestId, arrays)] }

/-- A step of the model server's end, in `receive`. -/
def receive (s : Link) : Option Link :=
  match s.reader with
  | .idle =>
    match s.stream with
    | [] => none
    | .step requestId header :: stream =>
      if header.spans = [] then some ({ s with stream }.deliver requestId [])
      else some { s with stream, reader := .attaching requestId header }
    | _ :: stream => some { s with stream }
  | .attaching requestId header => some (s.attach requestId header)
  | .copying requestId _ copied [] => some (s.deliver requestId copied)
  | .copying requestId header copied (span :: rest) =>
    if (s.blocks.bytes header.name).length < span.offset + span.length then
      some { s with reader := .failed }
    else some { s with
      reader := .copying requestId header (copied ++ [s.blocks.copy header.name span]) rest }
  | .failed => none

/-- The step a label stands for; `none` where it cannot happen. -/
def next (s : Link) : Label → Option Link
  | .receive => s.receive
  | label => s.call label

end Link

/-- A link that was just set up, with request blocks of `inputBytes` bytes. -/
def link (basePrefix : String) (inputBytes : ℕ) : TransitionSystem Link Label where
  init :=
    let writer := SharedSlot.fixed basePrefix inputBytes
    { blocks := Blocks.create (fun _ => none) writer.name inputBytes, basePrefix, writer }
  step := Link.next

end ReactorRuntime.SharedMemory
