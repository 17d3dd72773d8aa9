import ReactorRuntime.Core.MediaBundle
import ReactorRuntime.Interface.InputBuffer
import ReactorRuntime.LiveKit.StreamFramer
import ReactorRuntime.Protocol.Messages

/-!
# Media frames on the wire

`protocol/frames.py`.  An array is its shape and its elements in row-major order, and a decoded one
the bytes of its elements.  What NumPy makes of one element of a payload, in `astype` and in
`_int16_audio`, is a parameter.  The mean of some `int16` is exact, as no double of it is rounded to
a half.
-/

namespace ReactorRuntime.Protocol

open ReactorRuntime.Core ReactorRuntime.Interface ReactorRuntime.LiveKit ReactorRuntime.Python
open ReactorRuntime.Lists (rows)

structure Samples (E : Type) where
  shape : List ℕ
  elements : List E

structure NDArray (E : Type) extends Samples E where
  size : elements.length = shape.prod

inductive FrameEncodingError where
  /-- "frame encoding {encoding} is not supported". -/
  | unsupported (encoding : ℕ)
  /-- "a raw {kind} frame is {dtype}, not {got!r}". -/
  | dtype (kind : TrackKind) (got : String)
  /-- "a raw {kind} frame has {rank} non-zero dimensions, got shape {shape}". -/
  | dimensions (kind : TrackKind) (shape : List ℕ)
  /-- "a raw video frame is (height, width, 3), got shape {shape}". -/
  | notRgb (shape : List ℕ)
  /-- "a raw {kind} frame of shape {shape} is {expected} bytes, got {got}". -/
  | bytes (kind : TrackKind) (shape : List ℕ) (expected got : ℕ)
  /-- The `ValueError` of NumPy, where the bytes are not those of an array of the shape. -/
  | reshape
  /-- "a {kind} frame of dtype {dtype} cannot be carried: {error}". -/
  | notCarried (kind : TrackKind) (error : String)
  /-- "a {kind} frame cannot be shaped {shape}". -/
  | notShaped (kind : TrackKind) (shape : List ℕ)
  /-- "track {name!r} carries {entries} metadata entries for {count} frames". -/
  | metadataEntries (name : String) (entries count : ℕ)
  /-- "track {name!r} carries one frame but {entries} metadata entries". -/
  | oneFrame (name : String) (entries : ℕ)
  deriving DecidableEq

/-! ### One frame -/

def rawDtype : TrackKind → String
  | .video => "uint8"
  | .audio => "int16"

def rawRank : TrackKind → ℕ
  | .video => 3
  | .audio => 2

def itemSize : TrackKind → ℕ
  | .video => 1
  | .audio => 2

def sampleBytes (sample : ℤ) : List UInt8 := [UInt8.ofInt sample, UInt8.ofInt (sample / 256)]

/-- The shape that a raw frame is decoded to: the model reads sound as mono. -/
def readShape (kind : TrackKind) (shape : List ℕ) : List ℕ :=
  if kind = .audio then [1, shape.getD 1 0] else shape

namespace RawFrames

def check (frame : Frame) (kind : TrackKind) : Except FrameEncodingError (List ℕ) :=
  if frame.dtype ≠ rawDtype kind then .error (.dtype kind frame.dtype)
  else if frame.shape.length ≠ rawRank kind ∨ 0 ∈ frame.shape then
    .error (.dimensions kind frame.shape)
  else if kind = .video ∧ frame.shape.getD 2 0 ≠ 3 then .error (.notRgb frame.shape)
  else
    let expected := frame.shape.prod * itemSize kind
    if frame.data.length ≠ expected then
      .error (.bytes kind frame.shape expected frame.data.length)
    else .ok (readShape kind frame.shape)

/-- `np.frombuffer`, and `reshape`. -/
def reshape (frame : Frame) (kind : TrackKind) : Except FrameEncodingError InputFrame :=
  if itemSize kind ∣ frame.data.length ∧ frame.data.length / itemSize kind = frame.shape.prod then
    .ok ⟨frame.shape, frame.data⟩
  else .error .reshape

/-- `samples.mean(axis=0, keepdims=True).round()`. -/
def mixdown (channels size : ℕ) (samples : List ℤ) : List ℤ :=
  (List.range size).map fun i =>
    roundedMean ((rows size samples).map fun channel => channel.getD i 0).sum channels

def decode (frame : Frame) (kind : TrackKind) : Except FrameEncodingError InputFrame := do
  let _ ← check frame kind
  let samples ← reshape frame kind
  let channels := samples.shape.getD 0 0
  let size := samples.shape.getD 1 0
  if kind = .audio ∧ 1 < channels then
    return ⟨[1, size], (mixdown channels size (samplesOf samples.data)).flatMap sampleBytes⟩
  return samples

end RawFrames

/-- What an element of a payload becomes as `uint8` and as `int16`, or the error. -/
structure Conversion (E : Type) where
  uint8 : E → Except String UInt8
  int16 : E → Except String ℤ

variable {E : Type} (np : Conversion E)

def Conversion.bytes (kind : TrackKind) (e : E) : Except String (List UInt8) :=
  match kind with
  | .video => (np.uint8 e).map fun b => [b]
  | .audio => (np.int16 e).map sampleBytes

def FRAME_ENCODING_RAW : ℕ := 1

/-- The shape of a payload on the wire: samples along the only axis are one channel. -/
def wireShape (kind : TrackKind) (shape : List ℕ) : List ℕ :=
  if kind = .audio ∧ shape.length = 1 then 1 :: shape else shape

def RawFrames.encode (data : Samples E) (kind : TrackKind) : Except FrameEncodingError Frame := do
  let bytes ← (data.elements.mapM (np.bytes kind)).mapError (.notCarried kind)
  let shape := wireShape kind data.shape
  if shape.length ≠ rawRank kind ∨ 0 ∈ shape ∨ kind = .video ∧ shape.getD 2 0 ≠ 3 then
    .error (.notShaped kind data.shape)
  else
    .ok { encoding := FRAME_ENCODING_RAW, dtype := rawDtype kind, shape, data := bytes.flatten
          metadata := none, captureTimeUs := none }

/-- `_codec`: the raw encoding is the only one in `FRAME_CODECS`. -/
def codec (frame : Frame) : Except FrameEncodingError Unit :=
  if frame.encoding = FRAME_ENCODING_RAW then .ok () else .error (.unsupported frame.encoding)

def checkFrame (frame : Frame) (kind : TrackKind) : Except FrameEncodingError (List ℕ) := do
  codec frame
  RawFrames.check frame kind

/-- A frame as the model reads it, with what its sender attached. -/
structure DecodedFrame extends InputFrame where
  metadata : Option (List UInt8)
  captureTimeUs : Option ℤ
  deriving DecidableEq

def decodedFrame (frame : Frame) (data : InputFrame) : DecodedFrame :=
  { data with metadata := frame.metadata, captureTimeUs := frame.captureTimeUs }

def decodeFrame (frame : Frame) (kind : TrackKind) : Except FrameEncodingError DecodedFrame := do
  codec frame
  return decodedFrame frame (← RawFrames.decode frame kind)

def encodeFrame (data : Samples E) (kind : TrackKind) (metadata : Option (List UInt8)) :
    Except FrameEncodingError Frame := do
  return { ← RawFrames.encode np data kind with metadata }

/-! ### A step's media -/

/-- `TrackData`, with what `TrackInfo` says of the track. -/
structure OutputTrack (E : Type) where
  name : String
  kind : TrackKind
  rate : PyFloat
  data : NDArray E
  metadata : Metadata (List UInt8)

def wireKind : TrackKind → ℕ
  | .video => 1
  | .audio => 2

def hasNoSamples (shape : List ℕ) : Bool :=
  shape = [0] || (shape.length = 2 && 0 < shape.getD 0 0 && shape.getD 1 0 = 0)

/-- `data[index]`. -/
def NDArray.entry (data : NDArray E) (index : ℕ) : Samples E :=
  let size := data.shape.tail.prod
  ⟨data.shape.tail, (data.elements.drop (index * size)).take size⟩

def framesOf (track : OutputTrack E) :
    Except FrameEncodingError (List (Samples E × Option (List UInt8))) :=
  let count := track.data.shape.getD 0 0
  if track.kind = .audio ∧ hasNoSamples track.data.shape then .ok []
  else if track.kind = .video ∧ track.data.shape.length = 4 then
    match track.metadata with
    | .each ms =>
      if ms.length ≠ count then .error (.metadataEntries track.name ms.length count)
      else .ok (((List.range count).map track.data.entry).zip (ms.map some))
    | .one m => .ok ((List.range count).map fun i => (track.data.entry i, some m))
    | .none => .ok ((List.range count).map fun i => (track.data.entry i, none))
  else
    match track.metadata with
    | .each ms => .error (.oneFrame track.name ms.length)
    | .one m => .ok [(track.data.toSamples, some m)]
    | .none => .ok [(track.data.toSamples, none)]

/-- One entry of `track_frames`. -/
def trackEntry (videoFps : Option PyFloat) (track : OutputTrack E) :
    Except FrameEncodingError TrackFrames := do
  let frames ← (← framesOf track).mapM fun part => encodeFrame np part.1 track.kind part.2
  let fps := videoFps.filter fun fps => track.kind = .video && !fps.isZero
  return { track := track.name, kind := wireKind track.kind, frames, rate := fps.getD track.rate }

def trackFrames (videoFps : Option PyFloat) (bundle : Option (List (OutputTrack E))) :
    Except FrameEncodingError (List TrackFrames) :=
  (bundle.getD []).mapM (trackEntry np videoFps)

def mediaSize (bundle : Option (List (OutputTrack E))) : ℕ :=
  ((bundle.getD []).map fun track => track.data.elements.length * itemSize track.kind).sum

end ReactorRuntime.Protocol
