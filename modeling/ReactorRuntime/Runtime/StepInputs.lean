import ReactorRuntime.Protocol.Frames
import ReactorRuntime.Transport.StepFrames

/-!
# The media of a step request

`Runner._check_media_input`, which checks every frame of a request on the loop, and the writes of
`ReactorApp._run_requested_step`, which decode them on the model's thread.  The check goes by the
bound of a track's buffer alone.
-/

namespace ReactorRuntime.Runtime

open ReactorRuntime.Core ReactorRuntime.Interface ReactorRuntime.Protocol ReactorRuntime.Transport

/-- An input track, with the bound of its `_input_buffer`: only sound is bounded in samples. -/
structure InputTrack where
  kind : TrackKind
  bound : BufferBound
  video : kind = .video → bound.maxSamples = none

/-- `FrameSource`: `functools.partial` of `decoded_frame` or of `decode_frame`. -/
inductive FrameSource where
  | decoded (frame : Frame) (picture : VideoFrame)
  | raw (frame : Frame) (kind : TrackKind)

def FrameSource.call : FrameSource → Except FrameEncodingError DecodedFrame
  | .decoded frame picture =>
    .ok (decodedFrame frame ⟨[picture.height, picture.width, 3], picture.rgb⟩)
  | .raw frame kind => decodeFrame frame kind

/-- What is said of `media_input[{index}]`. -/
inductive StepInputReason where
  /-- "{where} names {track!r}, which is not an input track of the model". -/
  | notAnInput (track : String)
  /-- "{where} names {track!r} a second time". -/
  | secondTime (track : String)
  /-- "{where} says {track!r} is not a {kind} track". -/
  | otherKind (track : String) (kind : TrackKind)
  /-- "{where}.frames[{position}]: an encoded video frame cannot go to {kind} track {track!r}". -/
  | encodedVideo (position : ℕ) (kind : TrackKind) (track : String)
  /-- "{where}.frames[{position}]: {error}". -/
  | frame (position : ℕ) (error : FrameEncodingError)
  /-- "{where} holds {frames} frames for {track!r}, whose input buffer holds {bound}". -/
  | overflow (frames : ℕ) (track : String) (bound : BufferBound)

/-- `_StepInputError`. -/
structure StepInputError where
  index : ℕ
  reason : StepInputReason

/-- `_WIRE_TRACK_KINDS`. -/
def wireTrackKinds : ℕ → Option TrackKind
  | 1 => some .video
  | 2 => some .audio
  | _ => none

variable (tracks : String → Option InputTrack) (pictures : Pictures)

/-- The source of a frame, and how many samples it counts for. -/
def checkSource (index : ℕ) (track : String) (kind : TrackKind) (frame : Frame × ℕ) :
    Except StepInputReason (FrameSource × ℕ) :=
  match pictures.lookup (index, frame.2) with
  | some picture =>
    if kind ≠ .video then .error (.encodedVideo frame.2 kind track)
    else .ok (.decoded frame.1 picture, 0)
  | none =>
    match checkFrame frame.1 kind with
    | .error error => .error (.frame frame.2 error)
    | .ok shape => .ok (.raw frame.1 kind, if kind = .audio then shape.getLastD 0 else 0)

def checkEntry (checked : List (String × List FrameSource)) (entry : TrackFrames × ℕ) :
    Except StepInputReason (List FrameSource) :=
  let track := entry.1.track
  match tracks track with
  | none => .error (.notAnInput track)
  | some info =>
    if track ∈ checked.map Prod.fst then .error (.secondTime track)
    else if entry.1.kind ≠ 0 ∧ wireTrackKinds entry.1.kind ≠ some info.kind then
      .error (.otherKind track info.kind)
    else do
      let frames ← entry.1.frames.zipIdx.mapM (checkSource pictures entry.2 track info.kind)
      if InputBuffer.holds { info.bound with } frames.length (frames.map Prod.snd).sum then
        .ok (frames.map Prod.fst)
      else .error (.overflow frames.length track info.bound)

/-- A turn of the loop over the entries. -/
def checkNext (checked : List (String × List FrameSource)) (entry : TrackFrames × ℕ) :
    Except StepInputError (List (String × List FrameSource)) :=
  match checkEntry tracks pictures checked entry with
  | .error reason => .error ⟨entry.2, reason⟩
  | .ok frames => .ok (checked ++ [(entry.1.track, frames)])

def checkMediaInput (mediaInput : List TrackFrames) :
    Except StepInputError (List (String × List FrameSource)) :=
  mediaInput.zipIdx.foldlM (checkNext tracks pictures) []

/-- The frames of a track are decoded and pushed, one after another. -/
def writeTrack (conn : String) (session : ℕ) (b : InputBuffer) (sources : List FrameSource) :
    Except FrameEncodingError InputBuffer :=
  sources.foldlM (fun b source => source.call.map fun frame =>
    (b.push frame.toInputFrame (some conn) session).1) b

def writeInputs (conn : String) (session : ℕ) (buffers : String → Option InputBuffer)
    (mediaInput : List (String × List FrameSource)) :
    Except FrameEncodingError (String → Option InputBuffer) :=
  mediaInput.foldlM (fun buffers entry =>
    match buffers entry.1 with
    | none => .ok buffers
    | some b => (writeTrack conn session b entry.2).map fun b =>
      Function.update buffers entry.1 (some b)) buffers

end ReactorRuntime.Runtime
