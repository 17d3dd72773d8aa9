import ReactorRuntime.Protocol.Messages

/-!
# Structs and plain dictionaries

`struct_to_dict` and `dict_to_struct`, and the legacy form of an upload reference.  A number that is
not finite has no rendering, and a string with a lone surrogate, or an integer too large for a
double, has no field to go into.

The coercion of the keys is left out: the keys of what `json.loads` builds are strings.
-/

namespace ReactorRuntime.Protocol

open ReactorRuntime.Python

inductive ProtocolError where
  /-- `UnsupportedMessageError`, which is a `ValueError`. -/
  | unsupportedMessage
  | python (e : PyError)
  deriving DecidableEq

def ProtocolError.isValueError : ProtocolError → Bool
  | unsupportedMessage => true
  | python e => e = .valueError

/-- A Python operation that a protocol function makes. -/
def lift {β : Type} : Except PyError β → Except ProtocolError β
  | .ok b => .ok b
  | .error e => .error (.python e)

@[simp] theorem lift_ok {β : Type} (b : β) : lift (.ok b) = .ok b := rfl
@[simp] theorem lift_error {β : Type} (e : PyError) :
    lift (.error e : Except PyError β) = .error (.python e) := rfl

@[simp] theorem bind_ok {ε β γ : Type} (b : β) (f : β → Except ε γ) : (.ok b >>= f) = f b := rfl

theorem bind_eq_ok {ε β γ : Type} {x : Except ε β} {f : β → Except ε γ} {c : γ}
    (h : (x >>= f) = .ok c) : ∃ b, x = .ok b ∧ f b = .ok c := by
  cases x with
  | error e => cases h
  | ok b => exact ⟨b, rfl, h⟩

mutual

/-- `MessageToDict` of a `Value`. -/
def valueToJson : StructValue → Except PyError Json
  | .null => .ok .none
  | .number x => if x.isFinite then .ok (.float x) else .error .valueError
  | .string s => .ok (.str (.text s))
  | .bool b => .ok (.bool b)
  | .struct fields => (structToDict fields).map .dict
  | .list values => (listToJson values).map .list

def structToDict : List (String × StructValue) → Except PyError (List (PyStr × Json))
  | [] => .ok []
  | (key, value) :: fields => do
    let value ← valueToJson value
    let entries ← structToDict fields
    return (.text key, value) :: entries

/-- `MessageToDict` of a `ListValue`. -/
def listToJson : List StructValue → Except PyError (List Json)
  | [] => .ok []
  | value :: values => do
    let value ← valueToJson value
    let items ← listToJson values
    return value :: items

end

mutual

def setStructValue : Json → Except PyError StructValue
  | .none => .ok .null
  | .bool b => .ok (.bool b)
  | .str s => s.encode.map .string
  | .int n => (Texts.floatOfInt n).map .number
  | .float x => .ok (.number x)
  | .dict entries => (dictToStruct entries).map .struct
  | .list items => (extendList items).map .list

def dictToStruct : List (PyStr × Json) → Except PyError (List (String × StructValue))
  | [] => .ok []
  | (key, value) :: entries => do
    let key ← key.encode
    let value ← setStructValue value
    let fields ← dictToStruct entries
    return (key, value) :: fields

def extendList : List Json → Except PyError (List StructValue)
  | [] => .ok []
  | item :: items => do
    let value ← setStructValue item
    let values ← extendList items
    return value :: values

end

def uploadReferenceToDict (ref : UploadReference) : Json :=
  .dict [(.text "upload_id", .str (.text ref.uploadId)), (.text "name", .str (.text ref.name)),
    (.text "mime_type", .str (.text ref.mimeType)), (.text "size", .int ref.size.val)]

def getStr (texts : Texts) (value : Json) (key : String) : Except PyError PyStr := do
  let found ← value.get key
  return texts.str (found.getD (.str (.text "")))

def dictToUploadReference (texts : Texts) (value : Json) : Except PyError UploadReference := do
  let uploadId ← getStr texts value "upload_id"
  let name ← getStr texts value "name"
  let mimeType ← getStr texts value "mime_type"
  let size ← texts.toInt ((← value.get "size").getD (.int 0))
  -- the arguments are evaluated before the message takes the first of them
  return {
    uploadId := ← uploadId.encode
    name := ← name.encode
    mimeType := ← mimeType.encode
    size := ← int64 size }

-- The equations of the recursive functions, for the proofs about them.
attribute [local simp] valueToJson structToDict listToJson setStructValue dictToStruct extendList

end ReactorRuntime.Protocol
