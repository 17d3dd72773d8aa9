import ReactorRuntime.Protocol.MessageGateway
import ReactorRuntime.TransitionSystem.Basic
import Mathlib.Data.List.AList
import Mathlib.Data.List.DropRight

/-!
# The encoded frames of step requests

`decodeStepFrames` checks the encoded frames of a step request and matches each with the picture it
decodes to.  What a decoder gives for a stream is a parameter, and so is that a decoder cannot be
opened or a picture not be converted, where the whole call raises.

`StepFrameGate` sits on the inbound messages of a connection.  A step is a turn of the event loop in
which a message arrives, the gate is closed, or a drain goes on up to its next await; a drain waits
for nothing but a decode.  `arrived` and `handed` are the history of the messages: those that
arrived before the gate was closed, and what was done with each.

Left out: what a decoder does with its bytes, and how its threads are freed.
-/

namespace ReactorRuntime.Transport

open ReactorRuntime.Protocol

/-! ### Access units -/

/-- What precedes the first start code of some bytes, and what follows each. -/
def pieces : List UInt8 → List UInt8 × List (List UInt8)
  | [] => ([], [])
  | 0 :: 0 :: 1 :: data => ([], (pieces data).1 :: (pieces data).2)
  | b :: data => (b :: (pieces data).1, (pieces data).2)

def nalUnits (data : List UInt8) : List (List UInt8) :=
  ((pieces data).2.map fun unit => unit.rdropWhile (· = 0)).filter fun unit => !unit.isEmpty

def nalType (unit : List UInt8) : UInt8 := unit.headD 0 &&& 0x1F

def idrNal : UInt8 := 5

def vclNals : List UInt8 := [1, 2, 3, 4, 5]

def accessUnitStartNals : List UInt8 := [6, 7, 8, 9]

/-- Whether a slice begins a picture. -/
def startsPicture (unit : List UInt8) : Bool := (unit.getD 1 0) &&& 0x80 ≠ 0

/-- What is wrong with an access unit. -/
inductive Problem where
  /-- "holds more than one picture". -/
  | severalPictures
  /-- "holds more than one access unit". -/
  | severalAccessUnits
  /-- "holds no picture". -/
  | noPicture
  deriving DecidableEq

/-- The rest of `_access_unit`, once the type of the first slice is known or not. -/
def accessUnitFrom (firstVcl : Option UInt8) : List (List UInt8) → Except Problem UInt8
  | [] => firstVcl.elim (.error .noPicture) .ok
  | unit :: units =>
    if nalType unit ∈ vclNals then
      if firstVcl.isSome && startsPicture unit then .error .severalPictures
      else accessUnitFrom (firstVcl.or (some (nalType unit))) units
    else if firstVcl.isSome && nalType unit ∈ accessUnitStartNals then .error .severalAccessUnits
    else accessUnitFrom firstVcl units

def accessUnit (data : List UInt8) : Except Problem UInt8 := accessUnitFrom none (nalUnits data)

/-! ### The entries of a request -/

/-- `_PASSTHROUGH`: `FRAME_ENCODING_UNSPECIFIED` and `FRAME_ENCODING_RAW`. -/
def passthrough : List ℕ := [0, 1]

/-- `FRAME_ENCODING_H264`. -/
def h264 : ℕ := 2

/-- What a refusal is at. -/
inductive Place where
  /-- "media_input[{index}]". -/
  | entry (index : ℕ)
  /-- "media_input[{index}].frames[{position}]". -/
  | frame (index position : ℕ)
  deriving DecidableEq

inductive Reason where
  /-- "frame encoding {name} is not supported". -/
  | unsupportedEncoding (encoding : ℕ)
  /-- "media_input[{index}] names {track!r}, which is not an input video track of the model". -/
  | notAnInput (index : ℕ) (track : String)
  /-- "an H.264 frame carries no data". -/
  | noData
  /-- "the H.264 frame {problem}; each frame is one access unit". -/
  | notOneAccessUnit (problem : Problem)
  /-- "a track's H.264 frames must start at a keyframe (an IDR access unit)". -/
  | noKeyframe
  /-- "the H.264 frames do not decode: {error}". -/
  | doesNotDecode (error : String)
  /-- "{frames} H.264 frames decoded to {pictures} pictures; ...". -/
  | missingPicture (frames pictures : ℕ)
  /-- "the H.264 frame decodes to {shape}, not the {declared} it declares". -/
  | wrongShape (shape declared : List ℕ)
  deriving DecidableEq

structure StepFrameRefusal where
  entry : Place
  reason : Reason
  deriving DecidableEq

/-- `_Stream`: the encoded frames of an entry, each with its position. -/
structure Stream where
  index : ℕ
  entry : TrackFrames
  frames : List (Frame × ℕ)
  sliced : Bool

/-- The checks of one encoded frame; the first of its entry begins the stream. -/
def checkFrame (index : ℕ) (first : Bool) (frame : Frame × ℕ) : Except StepFrameRefusal Unit :=
  if frame.1.data.isEmpty then .error ⟨.frame index frame.2, .noData⟩
  else
    match accessUnit frame.1.data with
    | .error problem => .error ⟨.frame index frame.2, .notOneAccessUnit problem⟩
    | .ok firstVcl =>
      if first && firstVcl ≠ idrNal then .error ⟨.frame index frame.2, .noKeyframe⟩ else .ok ()

/-- The checks of the encoded frames of an entry, in order. -/
def checkFrames (index : ℕ) : List (Frame × ℕ) → Except StepFrameRefusal Unit
  | [] => .ok ()
  | frame :: frames => do
    checkFrame index true frame
    frames.forM (checkFrame index false)

def slices (frames : List (Frame × ℕ)) : ℕ :=
  (frames.head?.map fun f => (nalUnits f.1.data).countP fun u => nalType u ∈ vclNals).getD 0

def checkEntry (videoInputs : List String) (index : ℕ) (entry : TrackFrames) :
    Except StepFrameRefusal (Option Stream) :=
  let frames := entry.frames.zipIdx.filter fun f => f.1.encoding ∉ passthrough
  if frames.isEmpty then .ok none
  else
    match frames.find? fun f => f.1.encoding ≠ h264 with
    | some f => .error ⟨.frame index f.2, .unsupportedEncoding f.1.encoding⟩
    | none =>
      if entry.track ∉ videoInputs then .error ⟨.entry index, .notAnInput index entry.track⟩
      else (checkFrames index frames).map fun _ =>
        some { index, entry, frames, sliced := 1 < slices frames }

def checkEntries (videoInputs : List String) :
    List (TrackFrames × ℕ) → List Stream × Option StepFrameRefusal
  | [] => ([], none)
  | (entry, index) :: entries =>
    match checkEntry videoInputs index entry with
    | .error refusal => ([], some refusal)
    | .ok none => checkEntries videoInputs entries
    | .ok (some stream) =>
      (stream :: (checkEntries videoInputs entries).1, (checkEntries videoInputs entries).2)

def streams (videoInputs : List String) (step : RequestStep) : List Stream :=
  (checkEntries videoInputs step.mediaInput.zipIdx).1

/-! ### Decoding -/

structure TrackDecoder where
  sliced : Bool
  deriving DecidableEq

abbrev Decoders := AList fun _ : String => TrackDecoder

/-- A picture, and its bytes once it is converted. -/
structure VideoFrame where
  height : ℕ
  width : ℕ
  rgb : List UInt8
  deriving DecidableEq

/-- The picture of each encoded frame of a request, by `(entry, position)`. -/
abbrev Pictures := List ((ℕ × ℕ) × VideoFrame)

/-- `_decode_stream`: the pictures of a stream, by the number of the packet, or the decoder's
error. -/
abbrev Decoded := Except String (List (ℕ × VideoFrame))

def openDecoder (decoders : Decoders) (stream : Stream) : Decoders :=
  if decoders.lookup stream.entry.track = some ⟨stream.sliced⟩ then decoders
  else decoders.insert stream.entry.track ⟨stream.sliced⟩

/-- One frame of a stream, the `i`th: its picture, or `none` for a `KeyError`. -/
def pictureOf (stream : Stream) (decoded : List (ℕ × VideoFrame)) (i : ℕ) (frame : Frame × ℕ) :
    Option (Except StepFrameRefusal ((ℕ × ℕ) × VideoFrame)) :=
  (decoded.lookup i).map fun picture =>
    let shape := [picture.height, picture.width, 3]
    if !frame.1.shape.isEmpty && frame.1.shape ≠ shape then
      .error ⟨.frame stream.index frame.2, .wrongShape shape frame.1.shape⟩
    else .ok ((stream.index, frame.2), picture)

/-- The frames of a stream from the `i`th on. -/
def picturesFrom (stream : Stream) (decoded : List (ℕ × VideoFrame)) :
    ℕ → List (Frame × ℕ) → Option (Except StepFrameRefusal Pictures)
  | _, [] => some (.ok [])
  | i, frame :: frames =>
    match pictureOf stream decoded i frame with
    | none => none
    | some (.error refusal) => some (.error refusal)
    | some (.ok picture) =>
      (picturesFrom stream decoded (i + 1) frames).map fun outcome =>
        outcome.map fun pictures => picture :: pictures

/-- `_pictures_of`, or `none` where it raises. -/
def picturesOf (stream : Stream) : Decoded → Option (Except StepFrameRefusal Pictures)
  | .error error => some (.error ⟨.entry stream.index, .doesNotDecode error⟩)
  | .ok decoded =>
    if decoded.length < stream.frames.length then
      (stream.frames.zipIdx.find? fun f => (decoded.lookup f.2).isNone).map fun missing =>
        .error ⟨.frame stream.index missing.1.2,
          .missingPicture stream.frames.length decoded.length⟩
    else picturesFrom stream decoded 0 stream.frames

/-- The pictures of the streams, in order, up to the first that is refused. -/
def gather (decoded : ℕ → Decoded) (refusal : Option StepFrameRefusal) :
    List Stream → Pictures → Option (Except StepFrameRefusal Pictures)
  | [], pictures => some (refusal.elim (.ok pictures) .error)
  | stream :: streams, pictures =>
    match picturesOf stream (decoded stream.index) with
    | none => none
    | some (.error r) => some (.error r)
    | some (.ok found) => gather decoded refusal streams (pictures ++ found)

/-- `decode_step_frames`: its decoders and its result, or `none` where it raises.  What each entry's
stream decodes to is `none` where a decoder cannot be opened or a picture not be converted. -/
def decodeStepFrames (videoInputs : List String) (step : RequestStep) (decoders : Decoders)
    (decoded : Option (ℕ → Decoded)) : Option (Decoders × Except StepFrameRefusal Pictures) :=
  decoded.bind fun decoded =>
    let checked := checkEntries videoInputs step.mediaInput.zipIdx
    (gather decoded checked.2 checked.1 []).map fun outcome =>
      (checked.1.foldl openDecoder decoders, outcome)

/-! ### The gate -/

/-- A message as it arrives. -/
structure Inbound where
  payload : Payload
  version : ProtocolVersion
  channel : Channel

/-- `encoded_step`: the id of a step request with an encoded frame, and what it asks for. -/
def encodedStep (parser : WireParser) (m : Inbound) : Option (String × RequestStep) :=
  match m.version, m.channel, m.payload with
  | .v1, .data, .bytes b =>
    match parser.parse .data b with
    | some (.data ⟨requestId, _, some (.requestStep step)⟩) =>
      if step.mediaInput.any fun entry => entry.frames.any fun f => f.encoding ∉ passthrough then
        some (requestId, step)
      else none
    | _ => none
  | _, _, _ => none

def unpublishedTrack (parser : WireParser) (m : Inbound) : Option String :=
  match m.version, m.channel, m.payload with
  | .v1, .control, .bytes b =>
    match parser.parse .control b with
    | some (.control ⟨_, _, some (.unpublishTrack name)⟩) => some name
    | _ => none
  | _, _, _ => none

inductive Handed where
  /-- `deliver`. -/
  | message (m : Inbound)
  /-- `deliver_step`. -/
  | decodedStep (m : Inbound) (pictures : Pictures)
  /-- `reply`, with the request's id. -/
  | refused (m : Inbound) (requestId : String) (refusal : StepFrameRefusal)

/-- The message that something was done with. -/
def Handed.inbound : Handed → Inbound
  | message m | decodedStep m _ | refused m _ _ => m

/-- What a drain waits for: to begin, or for the decode of a request, on a copy of the decoders. -/
inductive DrainStage where
  | absent
  | created
  | decoding (m : Inbound) (requestId : String) (step : RequestStep) (decoders : Decoders)
  | done

structure Drain where
  stage : DrainStage := .absent
  cancelled : Bool := false

structure StepFrameGate where
  backlog : List Inbound := []
  /-- `_draining`, by the number of the drain. -/
  draining : Option ℕ := none
  decoders : Decoders := ∅
  drains : ℕ → Drain := fun _ => {}
  /-- How many drains were created. -/
  created : ℕ := 0
  /-- History: the messages that arrived before the close. -/
  arrived : List Inbound := []
  /-- History: what was done with the messages. -/
  handed : List Handed := []
  /-- History: what had been done when the gate was closed. -/
  closedAt : Option (List Handed) := none

namespace StepFrameGate

variable (parser : WireParser) (videoInputs : List String) (s : StepFrameGate)

def move (d : ℕ) (stage : DrainStage) : StepFrameGate :=
  { s with drains := Function.update s.drains d { s.drains d with stage } }

def pass (m : Inbound) : StepFrameGate :=
  { s with
    decoders := (unpublishedTrack parser m).elim s.decoders s.decoders.erase
    handed := s.handed ++ [.message m] }

/-- `_drain`, from the head of its loop, up to its next await. -/
def drain (d : ℕ) (s : StepFrameGate) : List Inbound → StepFrameGate
  | [] => { s.move d .done with backlog := [], draining := none }
  | m :: backlog =>
    match encodedStep parser m with
    | none => drain d (s.pass parser m) backlog
    | some (requestId, step) =>
      { s.move d (.decoding m requestId step s.decoders) with backlog }

def submit (m : Inbound) : StepFrameGate :=
  let s := if s.closedAt.isNone then { s with arrived := s.arrived ++ [m] } else s
  if s.draining.isNone && (encodedStep parser m).isNone then s.pass parser m
  else
    let s := { s with backlog := s.backlog ++ [m] }
    if s.draining.isNone then
      { s.move s.created .created with draining := some s.created, created := s.created + 1 }
    else s

def close : StepFrameGate :=
  let s := { s with backlog := [], decoders := ∅, closedAt := s.closedAt.or (some s.handed) }
  match s.draining with
  | none => s
  | some d => { s with
      drains := Function.update s.drains d { s.drains d with cancelled := true }
      draining := none }

def outcome (m : Inbound) (requestId : String) : Except StepFrameRefusal Pictures → StepFrameGate
  | .error refusal => { s with handed := s.handed ++ [.refused m requestId refusal] }
  | .ok pictures => { s with handed := s.handed ++ [.decodedStep m pictures] }

end StepFrameGate

/-- What happens next. -/
inductive StepFrameGate.Label where
  | submit (m : Inbound)
  | close
  /-- A drain begins. -/
  | begins (d : ℕ)
  /-- The decode that a drain waits for ended. -/
  | decoded (d : ℕ) (decoded : Option (ℕ → Decoded))
  /-- A drain that waits for a decode goes on as it is cancelled. -/
  | cancelled (d : ℕ)

def StepFrameGate.next (parser : WireParser) (videoInputs : List String) (s : StepFrameGate) :
    StepFrameGate.Label → Option StepFrameGate
  | .submit m => some (s.submit parser m)
  | .close => some s.close
  | .begins d =>
    match (s.drains d).stage with
    | .created =>
      -- one that was cancelled before it began does not enter its body
      if (s.drains d).cancelled then some (s.move d .done) else some (s.drain parser d s.backlog)
    | _ => none
  | .decoded d decoded =>
    match (s.drains d).stage with
    | .decoding m requestId step decoders =>
      if (s.drains d).cancelled then none
      else
        match decodeStepFrames videoInputs step decoders decoded with
        | none => some { s.move d .done with draining := none }
        | some (decoders, outcome) =>
          let s := { s with decoders := decoders ∪ s.decoders }.outcome m requestId outcome
          some (s.drain parser d s.backlog)
    | _ => none
  | .cancelled d =>
    match (s.drains d).stage with
    | .decoding .. =>
      if (s.drains d).cancelled then some { s.move d .done with draining := none } else none
    | _ => none

/-- The gate of a connection, from when the connection is made. -/
def stepFrameGate (parser : WireParser) (videoInputs : List String) :
    TransitionSystem StepFrameGate StepFrameGate.Label where
  init := {}
  step := StepFrameGate.next parser videoInputs

attribute [local simp] StepFrameGate.next

end ReactorRuntime.Transport
