import ReactorRuntime.Python.Value

/-!
# The messages of the wire

The `reactor_wire.v1` messages, which are the vocabulary of both wire versions.  A map is the list of
its entries, and an `int64` field carries its range.

Left out: what `ClientStats` and `StepResult` hold, which no codec or router reads.
-/

namespace ReactorRuntime.Protocol

open ReactorRuntime.Python (PyFloat PyError)

inductive Channel where
  | control
  | data
  deriving DecidableEq

inductive Direction where
  | client
  | server
  deriving DecidableEq

inductive MessageKind where
  | unspecified
  | request
  | response
  | notification
  deriving DecidableEq

abbrev Int64Field := { n : ℤ // -2 ^ 63 ≤ n ∧ n < 2 ^ 63 }

def int64 (n : ℤ) : Except PyError Int64Field :=
  if h : -2 ^ 63 ≤ n ∧ n < 2 ^ 63 then .ok ⟨n, h⟩ else .error .valueError

@[simp] theorem int64_val (n : Int64Field) : int64 n.val = .ok n := dif_pos n.property

inductive StructValue where
  | null
  | number (x : PyFloat)
  | string (s : String)
  | bool (b : Bool)
  | struct (fields : List (String × StructValue))
  | list (values : List StructValue)

/-- A `Struct`; one that is unset is empty. -/
abbrev Struct := List (String × StructValue)

structure UploadReference where
  uploadId : String
  name : String
  mimeType : String
  size : Int64Field
  deriving DecidableEq

structure Command where
  type : String
  data : Struct
  uploads : List (String × UploadReference)

structure ModelMessage where
  type : String
  data : Struct

structure Error where
  code : String
  message : String
  deriving DecidableEq

structure Frame where
  encoding : ℕ
  dtype : String
  shape : List ℕ
  data : List UInt8
  metadata : Option (List UInt8)
  captureTimeUs : Option ℤ

structure TrackFrames where
  track : String
  kind : ℕ
  frames : List Frame
  rate : PyFloat

structure RequestStep where
  state : Struct
  commands : List Command
  mediaInput : List TrackFrames

structure FileUploaded where
  uploadId : String
  name : String
  mimeType : String
  size : Int64Field
  deriving DecidableEq

structure ClipReady where
  sessionId : String
  kind : String
  startMarker : PyFloat
  endMarker : PyFloat
  nowMarker : PyFloat
  predictedReadyAtMs : Int64Field
  playlistUrl : String
  deriving DecidableEq

structure Moderation where
  action : String
  inputKind : String
  command : String
  categories : List String
  message : String
  deriving DecidableEq

inductive DataClientPayload where
  | command (command : Command)
  | requestStep (step : RequestStep)
  | error (error : Error)

inductive DataServerPayload where
  | message (message : ModelMessage)
  | stepResult
  | error (error : Error)

inductive ControlClientPayload where
  | ping
  | requestSchema
  | fileUploaded (upload : FileUploaded)
  | requestClip (durationSeconds : PyFloat)
  | requestRecording
  | publishTrack (name : String)
  | pauseTrack (name : String)
  | resumeTrack (name : String)
  | unpublishTrack (name : String)
  | clientStats
  | error (error : Error)
  deriving DecidableEq

inductive ControlServerPayload where
  | modelSchema (openapi : Struct)
  | clipReady (clip : ClipReady)
  | clipFailed (reason : String)
  | moderation (moderation : Moderation)
  | publishTrack (name : String)
  | sessionEnded (reason : String)
  | error (error : Error)

/-- A message: whether it correlates with another, and its payload, if one is set. -/
structure Envelope (Payload : Type) where
  requestId : String := ""
  kind : MessageKind := .unspecified
  payload : Option Payload

abbrev DataClientMessage := Envelope DataClientPayload
abbrev DataServerMessage := Envelope DataServerPayload
abbrev ControlClientMessage := Envelope ControlClientPayload
abbrev ControlServerMessage := Envelope ControlServerPayload

inductive ClientMessage where
  | data (message : DataClientMessage)
  | control (message : ControlClientMessage)

/-- A message from the runtime to a client. -/
inductive ServerMessage where
  | data (message : DataServerMessage)
  | control (message : ControlServerMessage)

/-- A message, in either direction. -/
inductive Message where
  | client (message : ClientMessage)
  | server (message : ServerMessage)

/-- Which way a message travels. -/
def Message.direction : Message → Direction
  | client _ => .client
  | server _ => .server

end ReactorRuntime.Protocol
