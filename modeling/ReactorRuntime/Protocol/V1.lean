import ReactorRuntime.Protocol.Messages

/-!
# The binary codec

What `V1Codec.encode` makes of a message from a client: the fields that are set, in the order of
their numbers, each a tag and what it holds.  The id of the request is the first of them, and a
field that holds its default is left out.

The bytes of the payloads are a parameter (`WireWriter`): what frames them does not depend on what
they say.
-/

namespace ReactorRuntime.Protocol

/-- A number in base 128, the low digit first; every byte but the last has its high bit set. -/
def varint (n : ℕ) : List UInt8 :=
  if n < 128 then [UInt8.ofNat n] else UInt8.ofNat (n % 128 + 128) :: varint (n / 128)

/-- How the value of a field is laid out, as its tag has it. -/
inductive WireType where
  | varint
  | lengthDelimited
  deriving DecidableEq

def WireType.number : WireType → ℕ
  | varint => 0
  | lengthDelimited => 2

def tag (field : ℕ) (wireType : WireType) : List UInt8 := varint (8 * field + wireType.number)

/-- A field that is a run of bytes. -/
def lengthDelimited (field : ℕ) (body : List UInt8) : List UInt8 :=
  tag field .lengthDelimited ++ varint body.length ++ body

def MessageKind.number : MessageKind → ℕ
  | unspecified => 0
  | request => 1
  | response => 2
  | notification => 3

def DataClientPayload.field : DataClientPayload → ℕ
  | command _ => 10
  | requestStep _ => 11
  | error _ => 40

def ControlClientPayload.field : ControlClientPayload → ℕ
  | ping => 10
  | requestSchema => 11
  | fileUploaded _ => 12
  | requestClip _ => 13
  | requestRecording => 14
  | publishTrack _ => 15
  | pauseTrack _ => 16
  | resumeTrack _ => 17
  | unpublishTrack _ => 18
  | clientStats => 19
  | error _ => 40

/-- `SerializeToString` of what the payloads hold. -/
structure WireWriter where
  data : DataClientPayload → List UInt8
  control : ControlClientPayload → List UInt8

namespace V1Codec

def requestIdField (requestId : String) : List UInt8 :=
  if requestId = "" then [] else lengthDelimited 1 requestId.toUTF8.data.toList

def kindField (kind : MessageKind) : List UInt8 :=
  if kind = .unspecified then [] else tag 2 .varint ++ varint kind.number

/-- The field of the payload, which is there whatever it holds once it is set. -/
def payloadField {P : Type} (field : P → ℕ) (body : P → List UInt8) : Option P → List UInt8
  | some payload => lengthDelimited (field payload) (body payload)
  | none => []

def serialize {P : Type} (field : P → ℕ) (body : P → List UInt8) (message : Envelope P) :
    List UInt8 :=
  requestIdField message.requestId ++ kindField message.kind ++
    payloadField field body message.payload

def encode (writer : WireWriter) : ClientMessage → Channel × List UInt8
  | .data message => (.data, serialize DataClientPayload.field writer.data message)
  | .control message => (.control, serialize ControlClientPayload.field writer.control message)

end V1Codec

end ReactorRuntime.Protocol
