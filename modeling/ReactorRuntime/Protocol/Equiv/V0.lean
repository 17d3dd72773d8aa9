import ReactorRuntime.Protocol.V0
import ReactorRuntime.Python.Equiv.Json

/-!
# The legacy codec undoes itself

`legacy_round_trip`: a message that v0 carries, with finite numbers, is encoded, and the frame is
decoded to a message of the same class with the same payload, up to the name of the track in the
answer to a publish request, which has no place in the legacy form.  A message that v0 does not
carry is refused.
-/

namespace ReactorRuntime.Protocol

open ReactorRuntime.Python

/-! ### Structs -/

mutual

/-- Whether the numbers in a value are finite, and the keys of each struct distinct. -/
def StructValue.Renderable : StructValue → Prop
  | .null | .string _ | .bool _ => True
  | .number x => x.isFinite
  | .struct fields => (fields.map Prod.fst).Nodup ∧ StructValue.RenderableFields fields
  | .list values => StructValue.RenderableList values

def StructValue.RenderableFields : List (String × StructValue) → Prop
  | [] => True
  | (_, value) :: fields => value.Renderable ∧ StructValue.RenderableFields fields

def StructValue.RenderableList : List StructValue → Prop
  | [] => True
  | value :: values => value.Renderable ∧ StructValue.RenderableList values

end

/-- A struct whose keys are distinct and whose numbers are finite. -/
def Struct.Renderable (data : Struct) : Prop :=
  (data.map Prod.fst).Nodup ∧ StructValue.RenderableFields data

mutual

theorem valueToJson_spec : ∀ v : StructValue, v.Renderable →
    ∃ json, valueToJson v = .ok json ∧ setStructValue json = .ok v ∧ json.Printable
  | .null, _ => ⟨_, rfl, rfl, trivial⟩
  | .number x, hx => ⟨.float x, if_pos hx, rfl, trivial⟩
  | .string s, _ => ⟨_, rfl, rfl, s, rfl⟩
  | .bool b, _ => ⟨_, rfl, rfl, trivial⟩
  | .struct fields, hfields => by
    obtain ⟨entries, hto, hof, hkeys, hprint⟩ := structToDict_spec fields hfields.2
    refine ⟨.dict entries, ?_, ?_, ?_, hprint⟩
    · rw [valueToJson, hto]
      rfl
    · rw [setStructValue, hof]
      rfl
    · rw [hkeys]
      exact hfields.1.map fun a b => PyStr.text.inj
  | .list values, hvalues => by
    obtain ⟨items, hto, hof, hprint⟩ := listToJson_spec values hvalues
    refine ⟨.list items, ?_, ?_, hprint⟩
    · rw [valueToJson, hto]
      rfl
    · rw [setStructValue, hof]
      rfl

/-- A struct with finite numbers is rendered, and read back from the rendering. -/
theorem structToDict_spec : ∀ fields : List (String × StructValue),
    StructValue.RenderableFields fields →
      ∃ entries, structToDict fields = .ok entries ∧ dictToStruct entries = .ok fields ∧
        entries.map Prod.fst = (fields.map Prod.fst).map PyStr.text ∧
          Value.PrintableEntries entries
  | [], _ => ⟨[], rfl, rfl, rfl, trivial⟩
  | (key, value) :: fields, hfields => by
    obtain ⟨json, hto, hof, hprint⟩ := valueToJson_spec value hfields.1
    obtain ⟨entries, htos, hofs, hkeys, hprints⟩ := structToDict_spec fields hfields.2
    refine ⟨(.text key, json) :: entries, ?_, ?_, ?_, ⟨key, rfl⟩, hprint, hprints⟩
    · rw [structToDict, hto, htos]
      rfl
    · rw [dictToStruct, hof, hofs]
      rfl
    · rw [List.map_cons, hkeys]
      rfl

theorem listToJson_spec : ∀ values : List StructValue, StructValue.RenderableList values →
    ∃ items, listToJson values = .ok items ∧ extendList items = .ok values ∧
      Value.PrintableItems items
  | [], _ => ⟨[], rfl, rfl, trivial⟩
  | value :: values, hvalues => by
    obtain ⟨json, hto, hof, hprint⟩ := valueToJson_spec value hvalues.1
    obtain ⟨items, htos, hofs, hprints⟩ := listToJson_spec values hvalues.2
    refine ⟨json :: items, ?_, ?_, hprint, hprints⟩
    · rw [listToJson, hto, htos]
      rfl
    · rw [extendList, hof, hofs]
      rfl

end

theorem Struct.Renderable.spec {data : Struct} (h : data.Renderable) :
    ∃ entries, structToDict data = .ok entries ∧ dictToStruct entries = .ok data ∧
      Value.Printable (.dict entries) := by
  obtain ⟨entries, hto, hof, hkeys, hprint⟩ := structToDict_spec data h.2
  refine ⟨entries, hto, hof, ?_, hprint⟩
  rw [hkeys]
  exact h.1.map fun a b => PyStr.text.inj

/-! ### Upload references -/

@[simp] theorem getStr_dict (texts : Texts) (entries : List (PyStr × Json)) (key : String) :
    getStr texts (.dict entries) key =
      .ok (texts.str ((Value.lookup entries key).getD (.str (.text "")))) := rfl

theorem dictToUploadReference_uploadReferenceToDict (texts : Texts) (ref : UploadReference) :
    dictToUploadReference texts (uploadReferenceToDict ref) = .ok ref := by
  simp [dictToUploadReference, uploadReferenceToDict, bind, Except.bind, pure, Except.pure]

@[simp] theorem printable_int64 (n : Int64Field) : Value.Printable (.int n.val) := by
  have hlt : n.val.natAbs < 10 ^ 19 := by
    have := n.property
    omega
  rw [Value.Printable, Json.digitsOf, Json.maxDigits]
  split_ifs
  · simp
  · rw [List.length_reverse]
    have hlength := (Nat.digits_length_le_iff (by norm_num) _).mpr hlt
    omega

@[simp] theorem printable_float (x : PyFloat) : Value.Printable (.float x) := trivial

@[simp] theorem printable_list (items : List Json) :
    Value.Printable (.list items) ↔ Value.PrintableItems items := Iff.rfl

@[simp] theorem printable_text (s : String) : (V0Codec.text s).Printable := ⟨s, rfl⟩

@[simp] theorem printableEntries_entry (key : String) (value : Json)
    (entries : List (PyStr × Json)) :
    Value.PrintableEntries (V0Codec.entry key value :: entries) ↔
      value.Printable ∧ Value.PrintableEntries entries :=
  ⟨fun h => h.2, fun h => ⟨⟨key, rfl⟩, h⟩⟩

@[simp] theorem printableEntries_nil : Value.PrintableEntries [] := trivial

theorem printable_uploadReferenceToDict (ref : UploadReference) :
    (uploadReferenceToDict ref).Printable := by
  refine ⟨by simp, ?_⟩
  show Value.PrintableEntries [V0Codec.entry "upload_id" (V0Codec.text ref.uploadId),
    V0Codec.entry "name" (V0Codec.text ref.name),
    V0Codec.entry "mime_type" (V0Codec.text ref.mimeType), V0Codec.entry "size" (.int ref.size.val)]
  simp

/-- The uploads of a command, as its document holds them. -/
def uploadEntries (uploads : List (String × UploadReference)) : List (PyStr × Json) :=
  uploads.map fun u => V0Codec.entry u.1 (uploadReferenceToDict u.2)

theorem decodeUploads_uploadEntries (texts : Texts) (uploads : List (String × UploadReference)) :
    V0Codec.decodeUploads texts (uploadEntries uploads) = .ok uploads := by
  induction uploads with
  | nil => rfl
  | cons upload uploads ih =>
    show (do
      let ref ← lift (dictToUploadReference texts (uploadReferenceToDict upload.2))
      let rest ← V0Codec.decodeUploads texts (uploadEntries uploads)
      pure ((upload.1, ref) :: rest)) = _
    rw [dictToUploadReference_uploadReferenceToDict, ih]
    rfl

theorem printableEntries_uploadEntries (uploads : List (String × UploadReference)) :
    Value.PrintableEntries (uploadEntries uploads) := by
  induction uploads with
  | nil => trivial
  | cons upload uploads ih =>
    exact (printableEntries_entry _ _ _).mpr ⟨printable_uploadReferenceToDict upload.2, ih⟩

theorem printable_uploads {uploads : List (String × UploadReference)}
    (h : (uploads.map Prod.fst).Nodup) : Value.Printable (.dict (uploadEntries uploads)) := by
  refine ⟨?_, printableEntries_uploadEntries uploads⟩
  have hkeys : (uploadEntries uploads).map Prod.fst = (uploads.map Prod.fst).map PyStr.text := by
    simp [uploadEntries, V0Codec.entry]
  rw [hkeys]
  exact h.map fun a b => PyStr.text.inj

/-! ### What a message carries -/

/-- The payload of a message of any class. -/
inductive AnyPayload where
  | dataClient (payload : Option DataClientPayload)
  | dataServer (payload : Option DataServerPayload)
  | controlClient (payload : Option ControlClientPayload)
  | controlServer (payload : Option ControlServerPayload)

def Message.payload : Message → AnyPayload
  | .client (.data message) => .dataClient message.payload
  | .server (.data message) => .dataServer message.payload
  | .client (.control message) => .controlClient message.payload
  | .server (.control message) => .controlServer message.payload

def Message.requestId : Message → String
  | .client (.data message) => message.requestId
  | .server (.data message) => message.requestId
  | .client (.control message) => message.requestId
  | .server (.control message) => message.requestId

/-- A payload without the name of the track in the answer to a publish request. -/
def AnyPayload.unnamed : AnyPayload → AnyPayload
  | .controlServer (some (.publishTrack _)) => .controlServer (some (.publishTrack ""))
  | payload => payload

def AnyPayload.OfPublish : AnyPayload → Prop
  | .controlClient (some (.publishTrack _)) | .controlServer (some (.publishTrack _))
  | .controlServer (some (.error _)) => True
  | _ => False

def AnyPayload.Legacy : AnyPayload → Prop
  | .dataClient (some (.command _)) | .dataServer (some (.message _)) => True
  | .dataClient _ | .dataServer _ => False
  | .controlClient none | .controlClient (some .clientStats)
  | .controlClient (some (.error _)) => False
  | .controlClient (some _) => True
  | .controlServer payload => payload.isSome

/-- Whether the numbers of a payload are finite, and the keys of its maps distinct. -/
def AnyPayload.Renderable : AnyPayload → Prop
  | .dataClient (some (.command command)) =>
    Struct.Renderable command.data ∧ (command.uploads.map Prod.fst).Nodup
  | .dataServer (some (.message message)) => Struct.Renderable message.data
  | .controlClient (some (.requestClip durationSeconds)) => durationSeconds.isFinite
  | .controlServer (some (.modelSchema openapi)) => Struct.Renderable openapi
  | .controlServer (some (.clipReady clip)) =>
    clip.startMarker.isFinite ∧ clip.endMarker.isFinite ∧ clip.nowMarker.isFinite
  | _ => True

/-- Whether a message that is read back is the message that was sent: the same class and payload,
and in a publish exchange the same request id. -/
structure Message.Restored (sent read : Message) : Prop where
  payload : read.payload = sent.payload.unnamed
  requestId : sent.payload.OfPublish → read.requestId = sent.requestId

structure Rendered (texts : Texts) (message : Message) (channel : Channel) (document : Json) :
    Prop where
  encoded : V0Codec.encodeDocument message = .ok (channel, document)
  printable : document.Printable
  decoded : ∃ read, V0Codec.decodeDocument texts document channel message.direction = .ok read ∧
    message.Restored read

/-! ### The messages one by one -/

theorem printable_dict (entries : List (PyStr × Json)) :
    Value.Printable (.dict entries) ↔
      (entries.map Prod.fst).Nodup ∧ Value.PrintableEntries entries := Iff.rfl

theorem printable_inScope (scope : String) {inner : Json} (h : inner.Printable) :
    (V0Codec.inScope scope inner).Printable := by
  refine (printable_dict _).mpr ⟨by simp [V0Codec.entry], ?_⟩
  simpa using h

theorem printable_runtime (messageType : String) {data : List (PyStr × Json)}
    (h : Value.Printable (.dict data)) : (V0Codec.runtime messageType data).Printable := by
  refine printable_inScope _ ((printable_dict _).mpr ⟨by simp [V0Codec.entry], ?_⟩)
  simpa using h

theorem decodeData_inScope (texts : Texts) (inner : List (PyStr × Json)) (direction : Direction) :
    V0Codec.decodeData texts (V0Codec.inScope "application" (.dict inner)) direction =
      V0Codec.decodeApplication texts (.dict inner) direction := by
  simp [V0Codec.decodeData, V0Codec.inScope, V0Codec.entry, V0Codec.text]

theorem decodeData_runtime (texts : Texts) (messageType : String) (data : List (PyStr × Json))
    (direction : Direction) :
    V0Codec.decodeData texts (V0Codec.runtime messageType data) direction =
      match direction with
      | .client => (V0Codec.decodeRuntimeClient texts (some (V0Codec.text messageType))
          (.dict data)).map fun m => .client (.control m)
      | .server => (V0Codec.decodeRuntimeServer texts (some (V0Codec.text messageType))
          (.dict data)).map fun m => .server (.control m) := by
  cases direction <;>
    simp [V0Codec.decodeData, V0Codec.runtime, V0Codec.inScope, V0Codec.entry, V0Codec.text,
      V0Codec.decodeRuntime] <;> rfl

/-- What the document of a command holds under `data`: its uploads only where it has some. -/
def commandEntries (command : Command) (data : List (PyStr × Json)) : List (PyStr × Json) :=
  if command.uploads.isEmpty then
    [V0Codec.entry "type" (V0Codec.text command.type), V0Codec.entry "data" (.dict data)]
  else
    [V0Codec.entry "type" (V0Codec.text command.type), V0Codec.entry "data" (.dict data),
      V0Codec.entry "uploads" (.dict (uploadEntries command.uploads))]

theorem printable_commandEntries {command : Command} {data : List (PyStr × Json)}
    (hdata : Value.Printable (.dict data)) (huploads : (command.uploads.map Prod.fst).Nodup) :
    Value.Printable (.dict (commandEntries command data)) := by
  rw [printable_dict, commandEntries]
  split_ifs
  · exact ⟨by simp [V0Codec.entry], by simpa using hdata⟩
  · exact ⟨by simp [V0Codec.entry], by simpa using ⟨hdata, printable_uploads huploads⟩⟩

theorem lookup_commandEntries (command : Command) (data : List (PyStr × Json)) :
    Value.lookup (commandEntries command data) "type" = some (V0Codec.text command.type) ∧
      Value.lookup (commandEntries command data) "data" = some (.dict data) ∧
        Value.orEmpty (Value.lookup (commandEntries command data) "uploads") =
          .dict (uploadEntries command.uploads) := by
  unfold commandEntries
  split_ifs with hempty
  · have hnil : command.uploads = [] := List.isEmpty_iff.mp hempty
    simp [V0Codec.entry, hnil, uploadEntries]
  · simp [V0Codec.entry]

theorem decodeApplication_commandEntries (texts : Texts) {command : Command}
    {data : List (PyStr × Json)} (hdata : dictToStruct data = .ok command.data) :
    V0Codec.decodeApplication texts (.dict (commandEntries command data)) .client =
      .ok (.client (.data { kind := .notification, payload := some (.command command) })) := by
  obtain ⟨htype, hentries, huploads⟩ := lookup_commandEntries command data
  simp only [V0Codec.decodeApplication, V0Codec.str, V0Codec.field, V0Codec.text, getStr_dict,
    htype, hentries, huploads, hdata, Value.get_dict, Value.items_dict, Value.orEmpty_dict, lift_ok,
    bind_ok, Option.getD_some, Texts.str_str, PyStr.encode_text, decodeUploads_uploadEntries]
  rfl

theorem rendered_command (texts : Texts) (requestId : String) (kind : MessageKind)
    {command : Command} (hdata : Struct.Renderable command.data)
    (huploads : (command.uploads.map Prod.fst).Nodup) :
    ∃ document, Rendered texts (.client (.data ⟨requestId, kind, some (.command command)⟩)) .data
      document := by
  obtain ⟨data, hto, hof, hprint⟩ := hdata.spec
  refine ⟨V0Codec.inScope "application" (.dict (commandEntries command data)), ?_,
    printable_inScope _ (printable_commandEntries hprint huploads), _,
    (decodeData_inScope texts _ _).trans (decodeApplication_commandEntries texts hof), rfl,
    False.elim⟩
  simp only [V0Codec.encodeDocument, V0Codec.encodeCommand, hto, lift_ok, bind_ok, commandEntries]
  split_ifs <;> rfl

theorem rendered_message (texts : Texts) (requestId : String) (kind : MessageKind)
    {message : ModelMessage} (hdata : Struct.Renderable message.data) :
    ∃ document, Rendered texts (.server (.data ⟨requestId, kind, some (.message message)⟩)) .data
      document := by
  obtain ⟨data, hto, hof, hprint⟩ := hdata.spec
  refine ⟨V0Codec.inScope "application" (.dict [V0Codec.entry "type" (V0Codec.text message.type),
    V0Codec.entry "data" (.dict data)]), ?_, printable_inScope _ ?_,
    .server (.data { kind := .notification, payload := some (.message message) }),
    (decodeData_inScope texts _ _).trans ?_, rfl, False.elim⟩
  · simp only [V0Codec.encodeDocument, V0Codec.encodeModelMessage, hto, lift_ok, bind_ok]
    rfl
  · exact (printable_dict _).mpr ⟨by simp [V0Codec.entry], by simpa using hprint⟩
  · simp [V0Codec.decodeApplication, V0Codec.str, V0Codec.field, V0Codec.entry, V0Codec.text, hof]
    rfl

theorem rendered_runtimeClient {texts : Texts} {message : ControlClientMessage}
    {messageType : String} {data : List (PyStr × Json)} (read : ControlClientMessage)
    (hencode : V0Codec.encodeControlClient message = .ok (.data, V0Codec.runtime messageType data))
    (hprint : Value.Printable (.dict data))
    (hdecode : V0Codec.decodeRuntimeClient texts (some (V0Codec.text messageType)) (.dict data) =
      .ok read)
    (hread : Message.Restored (.client (.control message)) (.client (.control read))) :
    ∃ channel document, Rendered texts (.client (.control message)) channel document := by
  refine ⟨_, _, hencode, printable_runtime _ hprint, _, (decodeData_runtime texts _ _ _).trans ?_,
    hread⟩
  rw [hdecode]
  rfl

theorem rendered_runtimeServer {texts : Texts} {message : ControlServerMessage}
    {messageType : String} {data : List (PyStr × Json)} (read : ControlServerMessage)
    (hencode : V0Codec.encodeControlServer message = .ok (.data, V0Codec.runtime messageType data))
    (hprint : Value.Printable (.dict data))
    (hdecode : V0Codec.decodeRuntimeServer texts (some (V0Codec.text messageType)) (.dict data) =
      .ok read)
    (hread : Message.Restored (.server (.control message)) (.server (.control read))) :
    ∃ channel document, Rendered texts (.server (.control message)) channel document := by
  refine ⟨_, _, hencode, printable_runtime _ hprint, _, (decodeData_runtime texts _ _ _).trans ?_,
    hread⟩
  rw [hdecode]
  rfl

theorem decodeControlRequest_trackNotification (texts : Texts) (event name : String) :
    V0Codec.decodeControlRequest texts (V0Codec.trackNotification event name) =
      if event = "pause_track" then
        .ok { kind := .notification, payload := some (.pauseTrack name) }
      else if event = "resume_track" then
        .ok { kind := .notification, payload := some (.resumeTrack name) }
      else if event = "unpublish_track" then
        .ok { kind := .notification, payload := some (.unpublishTrack name) }
      else .error .unsupportedMessage := by
  simp [V0Codec.decodeControlRequest, V0Codec.trackNotification, V0Codec.entry, V0Codec.text,
    V0Codec.str, V0Codec.field]

theorem rendered_trackNotification {texts : Texts} {message : ControlClientMessage}
    {event name : String} {read : ControlClientMessage}
    (hencode : V0Codec.encodeControlClient message =
      .ok (.control, V0Codec.trackNotification event name))
    (hdecode : V0Codec.decodeControlRequest texts (V0Codec.trackNotification event name) = .ok read)
    (hread : Message.Restored (.client (.control message)) (.client (.control read))) :
    ∃ channel document, Rendered texts (.client (.control message)) channel document := by
  refine ⟨_, _, hencode, (printable_dict _).mpr ⟨by simp [V0Codec.entry], ?_⟩, _, ?_, hread⟩
  · simp [printable_dict]
  · show (V0Codec.decodeControlRequest texts _ >>= _) = _
    rw [hdecode]
    rfl

/-- A platform request, or a verb about a track. -/
theorem rendered_controlClient (texts : Texts) (requestId : String) (kind : MessageKind)
    {payload : ControlClientPayload} (hlegacy : (AnyPayload.controlClient (some payload)).Legacy) :
    ∃ channel document,
      Rendered texts (.client (.control ⟨requestId, kind, some payload⟩)) channel document := by
  have hempty : Value.Printable (.dict []) := (printable_dict _).mpr ⟨List.nodup_nil, trivial⟩
  cases payload with
  | ping => exact rendered_runtimeClient _ rfl hempty rfl ⟨rfl, False.elim⟩
  | requestSchema => exact rendered_runtimeClient _ rfl hempty rfl ⟨rfl, False.elim⟩
  | requestRecording => exact rendered_runtimeClient _ rfl hempty rfl ⟨rfl, False.elim⟩
  | fileUploaded upload =>
    refine rendered_runtimeClient
      { kind := .notification, payload := some (.fileUploaded upload) } rfl ?_ ?_ ⟨rfl, False.elim⟩
    · exact (printable_dict _).mpr ⟨by simp [V0Codec.entry], by simp⟩
    · simp [V0Codec.decodeRuntimeClient, V0Codec.entry, V0Codec.text, V0Codec.str, V0Codec.field,
        V0Codec.int]
  | requestClip durationSeconds =>
    refine rendered_runtimeClient _ rfl ?_ rfl ⟨rfl, False.elim⟩
    exact (printable_dict _).mpr ⟨by simp [V0Codec.entry], by simp⟩
  | publishTrack name =>
    refine ⟨_, _, rfl, (printable_dict _).mpr ⟨by simp [V0Codec.entry], ?_⟩, _, rfl, rfl,
      fun _ => rfl⟩
    simp [printable_dict]
  | pauseTrack name =>
    exact rendered_trackNotification rfl (decodeControlRequest_trackNotification texts _ name)
      ⟨rfl, False.elim⟩
  | resumeTrack name =>
    exact rendered_trackNotification rfl (decodeControlRequest_trackNotification texts _ name)
      ⟨rfl, False.elim⟩
  | unpublishTrack name =>
    exact rendered_trackNotification rfl (decodeControlRequest_trackNotification texts _ name)
      ⟨rfl, False.elim⟩
  | clientStats => exact hlegacy.elim
  | error error => exact hlegacy.elim

theorem printable_publishResponse (requestId : String) {key : String} {value : Json}
    (hkey : key = "data" ∨ key = "error") (hvalue : value.Printable) :
    (V0Codec.publishResponse requestId (V0Codec.entry key value)).Printable := by
  refine (printable_dict _).mpr ⟨?_, by simpa using hvalue⟩
  rcases hkey with rfl | rfl <;> simp [V0Codec.entry]

theorem mapM_field_text (texts : Texts) (categories : List String) :
    ((categories.map V0Codec.text).mapM fun c => V0Codec.field (texts.str c)) = .ok categories := by
  induction categories with
  | nil => rfl
  | cons category categories ih =>
    rw [List.map_cons, List.mapM_cons, ih]
    rfl

theorem categories_map_text (categories : List String) :
    V0Codec.categories (some (.list (categories.map V0Codec.text))) =
      .ok (categories.map V0Codec.text) := by
  cases categories <;> rfl

theorem printableItems_map_text (categories : List String) :
    Value.PrintableItems (categories.map V0Codec.text) := by
  induction categories with
  | nil => trivial
  | cons category categories ih => exact ⟨printable_text category, ih⟩

/-- A platform reply or notice, or an answer to a publish request. -/
theorem rendered_controlServer (texts : Texts) (requestId : String) (kind : MessageKind)
    {payload : ControlServerPayload}
    (hrender : (AnyPayload.controlServer (some payload)).Renderable) :
    ∃ channel document,
      Rendered texts (.server (.control ⟨requestId, kind, some payload⟩)) channel document := by
  have hempty : Value.Printable (.dict []) := (printable_dict _).mpr ⟨List.nodup_nil, trivial⟩
  cases payload with
  | modelSchema openapi =>
    obtain ⟨entries, hto, hof, hprint⟩ := Struct.Renderable.spec hrender
    have hencode : V0Codec.encodeControlServer ⟨requestId, kind, some (.modelSchema openapi)⟩ =
        .ok (.data, V0Codec.runtime "modelSchema" entries) := by
      simp only [V0Codec.encodeControlServer, hto, lift_ok, bind_ok]
      rfl
    refine rendered_runtimeServer { kind := .response, payload := some (.modelSchema openapi) }
      hencode hprint ?_ ⟨rfl, False.elim⟩
    simp only [V0Codec.decodeRuntimeServer, V0Codec.text, Value.isText_text, Value.items_dict, hof,
      lift_ok, bind_ok]
    rfl
  | clipReady clip =>
    refine rendered_runtimeServer { kind := .response, payload := some (.clipReady clip) }
      rfl ?_ ?_ ⟨rfl, False.elim⟩
    · refine (printable_dict _).mpr ⟨by simp [V0Codec.clipReadyToDict, V0Codec.entry], ?_⟩
      simp [V0Codec.clipReadyToDict]
    · simp [V0Codec.decodeRuntimeServer, V0Codec.dictToClipReady, V0Codec.clipReadyToDict,
        V0Codec.entry, V0Codec.text, V0Codec.str, V0Codec.field, V0Codec.int, V0Codec.float]
  | clipFailed reason =>
    refine rendered_runtimeServer { kind := .response, payload := some (.clipFailed reason) }
      rfl ?_ ?_ ⟨rfl, False.elim⟩
    · exact (printable_dict _).mpr ⟨by simp [V0Codec.entry], by simp⟩
    · simp [V0Codec.decodeRuntimeServer, V0Codec.entry, V0Codec.text, V0Codec.str, V0Codec.field]
  | moderation moderation =>
    refine rendered_runtimeServer
      { kind := .notification, payload := some (.moderation moderation) } rfl ?_ ?_
      ⟨rfl, False.elim⟩
    · refine (printable_dict _).mpr ⟨by simp [V0Codec.moderationToDict, V0Codec.entry], ?_⟩
      simpa [V0Codec.moderationToDict] using printableItems_map_text moderation.categories
    · have hmapM := mapM_field_text texts moderation.categories
      simp only [V0Codec.field] at hmapM
      simp [V0Codec.decodeRuntimeServer, V0Codec.dictToModeration, V0Codec.moderationToDict,
        V0Codec.entry, V0Codec.str, V0Codec.field, V0Codec.text, categories_map_text, hmapM]
  | sessionEnded reason =>
    refine rendered_runtimeServer { kind := .notification, payload := some (.sessionEnded reason) }
      rfl ?_ ?_ ⟨rfl, False.elim⟩
    · exact (printable_dict _).mpr ⟨by simp [V0Codec.entry], by simp⟩
    · simp [V0Codec.decodeRuntimeServer, V0Codec.entry, V0Codec.text, V0Codec.str, V0Codec.field]
  | publishTrack name =>
    exact ⟨_, _, rfl, printable_publishResponse requestId (.inl rfl) hempty, _, rfl, rfl,
      fun _ => rfl⟩
  | error error =>
    refine ⟨_, _, rfl, printable_publishResponse requestId (.inr rfl) ?_, _, rfl, rfl, fun _ => rfl⟩
    exact (printable_dict _).mpr ⟨by simp [V0Codec.entry], by simp⟩

theorem exists_rendered (texts : Texts) (message : Message) (hlegacy : message.payload.Legacy)
    (hrender : message.payload.Renderable) :
    ∃ channel document, Rendered texts message channel document := by
  rcases message with (⟨requestId, kind, payload⟩ | ⟨requestId, kind, payload⟩) |
    (⟨requestId, kind, payload⟩ | ⟨requestId, kind, payload⟩) <;> rcases payload with _ | payload
  · exact hlegacy.elim
  · cases payload with
    | command command => exact ⟨.data, rendered_command texts requestId kind hrender.1 hrender.2⟩
    | requestStep step => exact hlegacy.elim
    | error error => exact hlegacy.elim
  · exact hlegacy.elim
  · exact rendered_controlClient texts requestId kind hlegacy
  · exact hlegacy.elim
  · cases payload with
    | message message => exact ⟨.data, rendered_message texts requestId kind hrender⟩
    | stepResult => exact hlegacy.elim
    | error error => exact hlegacy.elim
  · cases hlegacy
  · exact rendered_controlServer texts requestId kind hrender

theorem Rendered.decode {texts : Texts} {message : Message} {channel : Channel} {document : Json}
    (h : Rendered texts message channel document) :
    V0Codec.encode message = .ok (channel, Json.dumps document) ∧
      ∃ read, V0Codec.decode texts (Json.dumps document) channel message.direction = .ok read ∧
        message.Restored read := by
  obtain ⟨read, hdecode, hread⟩ := h.decoded
  refine ⟨by rw [V0Codec.encode, h.encoded]; rfl, read, ?_, hread⟩
  rw [V0Codec.decode, Json.loads_dumps h.printable]
  exact hdecode

theorem encodeDocument_of_not_legacy {message : Message} (h : ¬message.payload.Legacy) :
    V0Codec.encodeDocument message = .error .unsupportedMessage := by
  rcases message with (⟨requestId, kind, payload⟩ | ⟨requestId, kind, payload⟩) |
    (⟨requestId, kind, payload⟩ | ⟨requestId, kind, payload⟩) <;> rcases payload with _ | payload
  all_goals try rfl
  · cases payload with
    | command command => exact absurd trivial h
    | requestStep step => rfl
    | error error => rfl
  · cases payload <;> first | rfl | exact absurd trivial h
  · cases payload with
    | message message => exact absurd trivial h
    | stepResult => rfl
    | error error => rfl
  · exact absurd rfl h

/-- **The legacy codec**: a message that v0 carries, with finite numbers, is encoded, and its frame
is decoded to a message of the same class with the same payload and, in a publish exchange, the same
request id, but for the name of the track in the answer to a publish request; two messages of one
direction with the same frame have the same payload, up to that name; and any other message is
refused. -/
theorem legacy_round_trip (texts : Texts) :
    (∀ message : Message, message.payload.Legacy → message.payload.Renderable →
      ∃ channel frame read, V0Codec.encode message = .ok (channel, frame) ∧
        V0Codec.decode texts frame channel message.direction = .ok read ∧ message.Restored read) ∧
    (∀ message message' : Message, message.payload.Legacy → message.payload.Renderable →
      message'.payload.Legacy → message'.payload.Renderable →
        message.direction = message'.direction → V0Codec.encode message = V0Codec.encode message' →
          message.payload.unnamed = message'.payload.unnamed) ∧
    ∀ message : Message, ¬message.payload.Legacy →
      V0Codec.encode message = .error .unsupportedMessage := by
  refine ⟨fun message hlegacy hrender => ?_,
    fun message message' hlegacy hrender hlegacy' hrender' hdirection hencode => ?_,
    fun message h => by rw [V0Codec.encode, encodeDocument_of_not_legacy h]; rfl⟩
  · obtain ⟨channel, document, h⟩ := exists_rendered texts message hlegacy hrender
    obtain ⟨hencode, read, hdecode, hread⟩ := h.decode
    exact ⟨channel, _, read, hencode, hdecode, hread⟩
  · obtain ⟨channel, document, h⟩ := exists_rendered texts message hlegacy hrender
    obtain ⟨channel', document', h'⟩ := exists_rendered texts message' hlegacy' hrender'
    obtain ⟨henc, read, hdecode, hread⟩ := h.decode
    obtain ⟨henc', read', hdecode', hread'⟩ := h'.decode
    -- the same frame is decoded to the same message
    rw [henc, henc'] at hencode
    obtain ⟨rfl, hframe⟩ := Prod.mk.inj (Except.ok.inj hencode)
    rw [hframe, hdirection, hdecode'] at hdecode
    rw [← hread.payload, ← hread'.payload, Except.ok.inj hdecode]

def publishReply (name : String) : Message :=
  .server (.control {
    requestId := "ctrl_1", kind := .response, payload := some (.publishTrack name) })

/-- Two answers that name different tracks have the same frame, which is decoded to neither. -/
theorem publish_reply_name_lost :
    V0Codec.encode (publishReply "camera") = V0Codec.encode (publishReply "mic") ∧
      (publishReply "camera").payload ≠ (publishReply "mic").payload ∧
        ∀ texts, V0Codec.decodeDocument texts
          (V0Codec.publishResponse "ctrl_1" (V0Codec.entry "data" (.dict []))) .control .server =
            .ok (publishReply "") :=
  ⟨rfl, by simp [publishReply, Message.payload], fun _ => rfl⟩

/-- The text functions of a document without numbers or other values to convert. -/
def plainTexts : Texts where
  readInt _ := none
  readFloat _ := none
  write _ := .text ""

/-- A publish request keeps its name and its request id. -/
theorem legacy_round_trip_publish : ∃ channel frame read,
    V0Codec.encode (.client (.control ⟨"ctrl_1", .request, some (.publishTrack "camera")⟩)) =
        .ok (channel, frame) ∧
      V0Codec.decode plainTexts frame channel .client = .ok read ∧
        Message.Restored
          (.client (.control ⟨"ctrl_1", .request, some (.publishTrack "camera")⟩)) read :=
  (legacy_round_trip plainTexts).1 _ trivial trivial

end ReactorRuntime.Protocol
