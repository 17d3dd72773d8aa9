import ReactorRuntime.Protocol.V0

/-!
# The inbound message router

`MessageGateway.handle` decodes the frame of a connection in the version the connection negotiated,
and routes the message: a call of the sink, a command, a step request, or a line in the log.  What
it does is the list of these, so that a frame that is dropped does nothing.

The parser of protobuf messages is a parameter (`WireParser`).  Left out: the
pictures of a step request, which the gateway hands on unread, and the cache of the codecs.
-/

namespace ReactorRuntime.Protocol

open ReactorRuntime.Python

inductive ProtocolVersion where
  | v0
  | v1
  deriving DecidableEq

inductive Payload where
  | bytes (b : List UInt8)
  | text (s : String)

/-- `ParseFromString` of the messages that clients send: `none` where it raises a `DecodeError`. -/
structure WireParser where
  parse : Channel → List UInt8 → Option ClientMessage

abbrev ConnId := ℕ

structure InboundCommand where
  name : String
  args : List (PyStr × Json)
  uploads : List (String × String)
  connId : ConnId
  requestId : String
  receivedAt : ℚ

structure StepCommand where
  name : String
  args : List (PyStr × Json)
  uploads : List (String × String)

structure InboundStep where
  state : List (PyStr × Json)
  commands : List StepCommand
  mediaInput : List TrackFrames
  connId : ConnId
  requestId : String
  receivedAt : ℚ

/-- What the gateway does with a message: the calls of the sink, and what the handlers get. -/
inductive Routed where
  | keepalive (connId : ConnId)
  | resumeTrack (connId : ConnId) (name : String)
  | pauseTrack (connId : ConnId) (name : String)
  | publishRequested (connId : ConnId) (name requestId : String)
  | unpublishTrack (connId : ConnId) (name : String)
  | fileUploaded (connId : ConnId) (uploadId : String)
  | schemaRequested (connId : ConnId) (requestId : String)
  | clipRequested (connId : ConnId) (durationSeconds : PyFloat) (requestId : String)
  | recordingRequested (connId : ConnId) (requestId : String)
  | onCommand (command : InboundCommand)
  | onStep (step : InboundStep)
  | unrouted

structure MessageGateway where
  texts : Texts
  parser : WireParser

structure InboundFrame where
  connId : ConnId
  payload : Payload
  channel : Channel
  version : ProtocolVersion
  receivedAt : ℚ
  /-- What `_new_request_id` returns, if it is called. -/
  newRequestId : String

namespace Payload

/-- The text that the legacy codec reads. -/
def toText : Payload → Except PyError String
  | bytes b => (String.fromUTF8? ⟨b.toArray⟩).elim (.error .valueError) .ok
  | text s => .ok s

/-- The bytes that the binary codec reads. -/
def toBytes : Payload → List UInt8
  | bytes b => b
  | text s => s.toUTF8.data.toList

end Payload

namespace MessageGateway

variable (gateway : MessageGateway) (frame : InboundFrame)

/-- An error that a decoder raises; a `DecodeError` is caught as a `ValueError` is. -/
inductive DecodeFailure where
  | decodeError
  | protocol (e : ProtocolError)
  deriving DecidableEq

/-- Whether the gateway catches an error. -/
def DecodeFailure.isCaught : DecodeFailure → Bool
  | decodeError => true
  | protocol e => e.isValueError

/-- An operation of the protocol that the gateway makes. -/
def protocol {β : Type} : Except ProtocolError β → Except DecodeFailure β
  | .ok b => .ok b
  | .error e => .error (.protocol e)

@[simp] theorem protocol_ok {β : Type} (b : β) : protocol (.ok b) = .ok b := rfl
@[simp] theorem protocol_error {β : Type} (e : ProtocolError) :
    protocol (.error e : Except ProtocolError β) = .error (.protocol e) := rfl

def decodeInbound : Except DecodeFailure ClientMessage :=
  match frame.version with
  | .v0 => do
    let s ← protocol (lift frame.payload.toText)
    match ← protocol (V0Codec.decode gateway.texts s frame.channel .client) with
    | .client message => return message
    | .server _ => .error (.protocol .unsupportedMessage)
  | .v1 =>
    match gateway.parser.parse frame.channel frame.payload.toBytes with
    | some message => .ok message
    | none => .error .decodeError

def requestIdOr (requestId : String) : String :=
  if requestId = "" then frame.newRequestId else requestId

def routeControl (message : ControlClientMessage) : Routed :=
  match message.payload with
  | some .ping => .keepalive frame.connId
  | some (.resumeTrack name) => .resumeTrack frame.connId name
  | some (.pauseTrack name) => .pauseTrack frame.connId name
  | some (.publishTrack name) => .publishRequested frame.connId name message.requestId
  | some (.unpublishTrack name) => .unpublishTrack frame.connId name
  | some (.fileUploaded upload) => .fileUploaded frame.connId upload.uploadId
  | some .requestSchema => .schemaRequested frame.connId message.requestId
  | some (.requestClip durationSeconds) =>
    .clipRequested frame.connId durationSeconds (requestIdOr frame message.requestId)
  | some .requestRecording => .recordingRequested frame.connId (requestIdOr frame message.requestId)
  | some .clientStats | some (.error _) | none => .unrouted

def uploadIds (command : Command) : List (String × String) :=
  command.uploads.map fun u => (u.1, u.2.uploadId)

def stepCommand (command : Command) : Except PyError StepCommand := do
  return { name := command.type, args := ← structToDict command.data, uploads := uploadIds command }

/-- What a decoded message is routed to; this part of `handle` catches nothing. -/
def route : ClientMessage → Except PyError Routed
  | .control message => .ok (routeControl frame message)
  | .data message =>
    match message.payload with
    | some (.command command) => do
      let args ← structToDict command.data
      return .onCommand {
        name := command.type
        args
        uploads := uploadIds command
        connId := frame.connId
        requestId := requestIdOr frame message.requestId
        receivedAt := frame.receivedAt }
    | some (.requestStep request) => do
      let state ← structToDict request.state
      let commands ← request.commands.mapM stepCommand
      return .onStep {
        state, commands
        mediaInput := request.mediaInput
        connId := frame.connId
        requestId := requestIdOr frame message.requestId
        receivedAt := frame.receivedAt }
    | some (.error _) | none => .ok .unrouted

/-- `handle`: what is done with a frame, or the error that is raised. -/
def handle : Except DecodeFailure (List Routed) :=
  match decodeInbound gateway frame with
  | .ok message => (protocol (lift (route frame message))).map fun routed => [routed]
  | .error e => if e.isCaught then .ok [] else .error e

end MessageGateway

end ReactorRuntime.Protocol
