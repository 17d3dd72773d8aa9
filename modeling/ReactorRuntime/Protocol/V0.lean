import ReactorRuntime.Protocol.Common
import ReactorRuntime.Python.Json

/-!
# The legacy codec

`V0Codec`: each message that v0 has is rendered as a JSON document and read back from one, by
branches that the payload, or the words of the document, choose.  Platform messages travel on the
data channel under `{"scope": "runtime"}`, and the control channel carries the track verbs only.

`encodeDocument` and `decodeDocument` are the codec up to the text of the document.
-/

namespace ReactorRuntime.Protocol

open ReactorRuntime.Python

namespace V0Codec

def entry (key : String) (value : Json) : PyStr × Json := (.text key, value)

def text (s : String) : Json := .str (.text s)

def inScope (scope : String) (inner : Json) : Json :=
  .dict [entry "scope" (text scope), entry "data" inner]

def runtime (messageType : String) (data : List (PyStr × Json)) : Json :=
  inScope "runtime" (.dict [entry "type" (text messageType), entry "data" (.dict data)])

/-! ### Encoding -/

def encodeCommand (message : DataClientMessage) : Except ProtocolError (Channel × Json) :=
  match message.payload with
  | some (.command command) => do
    let data ← lift (structToDict command.data)
    let inner := [entry "type" (text command.type), entry "data" (.dict data)]
    let uploads := command.uploads.map fun u => entry u.1 (uploadReferenceToDict u.2)
    let inner :=
      if command.uploads.isEmpty then inner else inner ++ [entry "uploads" (.dict uploads)]
    return (.data, inScope "application" (.dict inner))
  | _ => .error .unsupportedMessage

def encodeModelMessage (message : DataServerMessage) : Except ProtocolError (Channel × Json) :=
  match message.payload with
  | some (.message message) => do
    let data ← lift (structToDict message.data)
    return (.data, inScope "application"
      (.dict [entry "type" (text message.type), entry "data" (.dict data)]))
  | _ => .error .unsupportedMessage

def trackNotification (event name : String) : Json :=
  .dict [entry "type" (text "notification"), entry "event" (text event),
    entry "data" (.dict [entry "name" (text name)])]

def encodeControlClient (message : ControlClientMessage) : Except ProtocolError (Channel × Json) :=
  match message.payload with
  | some .ping => .ok (.data, runtime "ping" [])
  | some .requestSchema => .ok (.data, runtime "requestSchema" [])
  | some (.fileUploaded upload) => .ok (.data, runtime "fileUploaded" [
      entry "upload_id" (text upload.uploadId), entry "name" (text upload.name),
      entry "mime_type" (text upload.mimeType), entry "size" (.int upload.size.val)])
  | some (.requestClip durationSeconds) => .ok (.data, runtime "requestClip" [
      entry "duration_seconds" (.float durationSeconds)])
  | some .requestRecording => .ok (.data, runtime "requestRecording" [])
  | some (.publishTrack name) => .ok (.control, .dict [
      entry "type" (text "request"), entry "method" (text "publish_track"),
      entry "request_id" (text message.requestId),
      entry "data" (.dict [entry "name" (text name)])])
  | some (.pauseTrack name) => .ok (.control, trackNotification "pause_track" name)
  | some (.resumeTrack name) => .ok (.control, trackNotification "resume_track" name)
  | some (.unpublishTrack name) => .ok (.control, trackNotification "unpublish_track" name)
  | some .clientStats | some (.error _) | none => .error .unsupportedMessage

def clipReadyToDict (clip : ClipReady) : List (PyStr × Json) := [
  entry "session_id" (text clip.sessionId), entry "kind" (text clip.kind),
  entry "start_marker" (.float clip.startMarker), entry "end_marker" (.float clip.endMarker),
  entry "now_marker" (.float clip.nowMarker),
  entry "predicted_ready_at_ms" (.int clip.predictedReadyAtMs.val),
  entry "playlist_url" (text clip.playlistUrl)]

def moderationToDict (moderation : Moderation) : List (PyStr × Json) := [
  entry "action" (text moderation.action), entry "input_kind" (text moderation.inputKind),
  entry "command" (text moderation.command),
  entry "categories" (.list (moderation.categories.map text)),
  entry "message" (text moderation.message)]

/-- The document of an answer to a publish request, with what it says. -/
def publishResponse (requestId : String) (outcome : PyStr × Json) : Json :=
  .dict [entry "type" (text "response"), entry "method" (text "publish_track"),
    entry "request_id" (text requestId), outcome]

def encodeControlServer (message : ControlServerMessage) : Except ProtocolError (Channel × Json) :=
  match message.payload with
  | some (.modelSchema openapi) => do
    return (.data, runtime "modelSchema" (← lift (structToDict openapi)))
  | some (.clipReady clip) => .ok (.data, runtime "clipReady" (clipReadyToDict clip))
  | some (.clipFailed reason) => .ok (.data, runtime "clipFailed" [entry "reason" (text reason)])
  | some (.moderation moderation) =>
    .ok (.data, runtime "moderation" (moderationToDict moderation))
  | some (.sessionEnded reason) =>
    .ok (.data, runtime "sessionEnded" [entry "reason" (text reason)])
  -- the name of the track stays behind
  | some (.publishTrack _) =>
    .ok (.control, publishResponse message.requestId (entry "data" (.dict [])))
  | some (.error error) => .ok (.control, publishResponse message.requestId (entry "error"
      (.dict [entry "code" (text error.code), entry "message" (text error.message)])))
  | none => .error .unsupportedMessage

def encodeDocument : Message → Except ProtocolError (Channel × Json)
  | .client (.data message) => encodeCommand message
  | .server (.data message) => encodeModelMessage message
  | .client (.control message) => encodeControlClient message
  | .server (.control message) => encodeControlServer message

def encode (message : Message) : Except ProtocolError (Channel × String) :=
  (encodeDocument message).map fun document => (document.1, Json.dumps document.2)

/-! ### Decoding -/

variable (texts : Texts)

def field (s : PyStr) : Except ProtocolError String := lift s.encode

def str (data : Json) (key : String) : Except ProtocolError PyStr := lift (getStr texts data key)

def decodeControlRequest (obj : Json) : Except ProtocolError ControlClientMessage := do
  let kind ← lift (obj.get "type")
  let data := Value.orEmpty (← lift (obj.get "data"))
  let method ← lift (obj.get "method")
  if Value.isText kind "request" && Value.isText method "publish_track" then
    let requestId ← str texts obj "request_id"
    let name ← str texts data "name"
    let name ← field name
    return {
      requestId := ← field requestId
      kind := .request
      payload := some (.publishTrack name) }
  else if Value.isText kind "notification" then
    let event ← lift (obj.get "event")
    let name ← str texts data "name"
    if Value.isText event "pause_track" then
      return { kind := .notification, payload := some (.pauseTrack (← field name)) }
    else if Value.isText event "resume_track" then
      return { kind := .notification, payload := some (.resumeTrack (← field name)) }
    else if Value.isText event "unpublish_track" then
      return { kind := .notification, payload := some (.unpublishTrack (← field name)) }
    else .error .unsupportedMessage
  else .error .unsupportedMessage

def decodeControlResponse (obj : Json) : Except ProtocolError ControlServerMessage := do
  if !Value.isText (← lift (obj.get "type")) "response" then .error .unsupportedMessage
  let requestId ← str texts obj "request_id"
  match ← lift (obj.get "error") with
  | some error =>
    let error := Value.orEmpty (some error)
    let code ← str texts error "code"
    let message ← str texts error "message"
    let code ← field code
    let message ← field message
    return {
      requestId := ← field requestId
      kind := .response
      payload := some (.error { code, message }) }
  | none =>
    return {
      requestId := ← field requestId
      kind := .response
      payload := some (.publishTrack "") }

/-- The entries of `uploads`, each read into the map. -/
def decodeUploads : List (PyStr × Json) → Except ProtocolError (List (String × UploadReference))
  | [] => .ok []
  | (param, ref) :: uploads => do
    let param ← field param
    let ref ← lift (dictToUploadReference texts ref)
    return (param, ref) :: (← decodeUploads uploads)

def decodeApplication (inner : Json) (direction : Direction) : Except ProtocolError Message := do
  let name ← str texts inner "type"
  let body := Value.orEmpty (← lift (inner.get "data"))
  let data ← lift (dictToStruct (← lift body.items))
  let type ← field name
  match direction with
  | .client =>
    let uploads ← lift (Value.orEmpty (← lift (inner.get "uploads"))).items
    let uploads ← decodeUploads texts uploads
    let command : Command := { type, data, uploads }
    return .client (.data { kind := .notification, payload := some (.command command) })
  | .server =>
    return .server (.data { kind := .notification, payload := some (.message { type, data }) })

def int (data : Json) (key : String) : Except ProtocolError ℤ := do
  let found ← lift (data.get key)
  lift (texts.toInt (found.getD (.int 0)))

def float (data : Json) (key : String) : Except ProtocolError PyFloat := do
  let found ← lift (data.get key)
  lift (texts.toFloat (found.getD (.float .zero)))

def decodeRuntimeClient (kind : Option Json) (data : Json) :
    Except ProtocolError ControlClientMessage := do
  if Value.isText kind "ping" then return { kind := .notification, payload := some .ping }
  else if Value.isText kind "requestSchema" then
    return { kind := .request, payload := some .requestSchema }
  else if Value.isText kind "fileUploaded" then
    let uploadId ← str texts data "upload_id"
    let name ← str texts data "name"
    let mimeType ← str texts data "mime_type"
    let size ← int texts data "size"
    return { kind := .notification, payload := some (.fileUploaded {
      uploadId := ← field uploadId
      name := ← field name
      mimeType := ← field mimeType
      size := ← lift (int64 size) }) }
  else if Value.isText kind "requestClip" then
    let durationSeconds ← float texts data "duration_seconds"
    return { kind := .request, payload := some (.requestClip durationSeconds) }
  else if Value.isText kind "requestRecording" then
    return { kind := .request, payload := some .requestRecording }
  else .error .unsupportedMessage

def dictToClipReady (data : Json) : Except ProtocolError ClipReady := do
  let sessionId ← str texts data "session_id"
  let kind ← str texts data "kind"
  let startMarker ← float texts data "start_marker"
  let endMarker ← float texts data "end_marker"
  let nowMarker ← float texts data "now_marker"
  let predictedReadyAtMs ← int texts data "predicted_ready_at_ms"
  let playlistUrl ← str texts data "playlist_url"
  return {
    sessionId := ← field sessionId
    kind := ← field kind
    startMarker, endMarker, nowMarker
    predictedReadyAtMs := ← lift (int64 predictedReadyAtMs)
    playlistUrl := ← field playlistUrl }

/-- `data.get("categories") or []`, as what is iterated over. -/
def categories (found : Option Json) : Except ProtocolError (List Json) :=
  match found with
  | none => .ok []
  | some value =>
    if !value.truthy then .ok [] else
    match value with
    | .list items => .ok items
    -- a mapping is iterated over by its keys, a string by its characters
    | .dict entries => .ok (entries.map fun e => .str e.1)
    | .str (.text s) => .ok (s.toList.map fun c => text c.toString)
    | .str (.surrogate points) => .ok (points.map fun p => .str (.ofPoints [p]))
    | .none | .bool _ | .int _ | .float _ => .error (.python .typeError)

def dictToModeration (data : Json) : Except ProtocolError Moderation := do
  let action ← str texts data "action"
  let inputKind ← str texts data "input_kind"
  let command ← str texts data "command"
  let categories ← categories (← lift (data.get "categories"))
  let message ← str texts data "message"
  return {
    action := ← field action
    inputKind := ← field inputKind
    command := ← field command
    categories := ← categories.mapM fun c => field (texts.str c)
    message := ← field message }

def decodeRuntimeServer (kind : Option Json) (data : Json) :
    Except ProtocolError ControlServerMessage := do
  if Value.isText kind "modelSchema" then
    let openapi ← lift (dictToStruct (← lift data.items))
    return { kind := .response, payload := some (.modelSchema openapi) }
  else if Value.isText kind "clipReady" then
    return { kind := .response, payload := some (.clipReady (← dictToClipReady texts data)) }
  else if Value.isText kind "clipFailed" then
    let reason ← str texts data "reason"
    return { kind := .response, payload := some (.clipFailed (← field reason)) }
  else if Value.isText kind "moderation" then
    return { kind := .notification, payload := some (.moderation (← dictToModeration texts data)) }
  else if Value.isText kind "sessionEnded" then
    let reason ← str texts data "reason"
    return { kind := .notification, payload := some (.sessionEnded (← field reason)) }
  else .error .unsupportedMessage

def decodeRuntime (inner : Json) (direction : Direction) : Except ProtocolError Message := do
  let kind ← lift (inner.get "type")
  let data := Value.orEmpty (← lift (inner.get "data"))
  match direction with
  | .client => return .client (.control (← decodeRuntimeClient texts kind data))
  | .server => return .server (.control (← decodeRuntimeServer texts kind data))

def decodeData (obj : Json) (direction : Direction) : Except ProtocolError Message := do
  let scope ← lift (obj.get "scope")
  let inner := Value.orEmpty (← lift (obj.get "data"))
  if Value.isText scope "application" then decodeApplication texts inner direction
  else if Value.isText scope "runtime" then decodeRuntime texts inner direction
  else .error .unsupportedMessage

def decodeControl (obj : Json) : Direction → Except ProtocolError Message
  | .client => return .client (.control (← decodeControlRequest texts obj))
  | .server => return .server (.control (← decodeControlResponse texts obj))

/-- `decode`, once the text of the frame is read. -/
def decodeDocument (obj : Json) (channel : Channel) (direction : Direction) :
    Except ProtocolError Message :=
  match channel with
  | .control => decodeControl texts obj direction
  | .data => decodeData texts obj direction

def decode (frame : String) (channel : Channel) (direction : Direction) :
    Except ProtocolError Message :=
  match Json.loads frame with
  | some obj => decodeDocument texts obj channel direction
  | none => .error (.python .valueError)

end V0Codec

end ReactorRuntime.Protocol
