import ReactorRuntime.Python.Comparison

/-!
# Field types

`TypeSpec`, the resolved form of a supported field annotation, and `check`, which says why a value
does not fit one.  A reason is kept as what its text is made of.

Left out: the values of a `Literal` or an enumeration that are not JSON's, and instances of the
model's own enumerations and dataclasses, which no argument is one of before it is coerced.
-/

namespace ReactorRuntime.Interface

open ReactorRuntime.Python

structure UploadedFile where
  name : String
  mimeType : String
  data : List UInt8
  deriving DecidableEq

/-- An argument of a command: a JSON value, where uploads may be resolved. -/
abbrev Argument := Value UploadedFile

/-- The types of `PrimitiveSpec`. -/
inductive Primitive where
  | bool
  | int
  | float
  | str
  deriving DecidableEq

inductive TypeSpec where
  | any
  | primitive (pyType : Primitive)
  | literal (values : List Json)
  | enum (name : String) (members : List Json)
  | list (item : TypeSpec)
  | dict (value : TypeSpec)
  | dataclass (fields : List (String × TypeSpec)) (required : List String)
  | optional (inner : TypeSpec)
  | upload

/-- Why a value does not fit a type. -/
inductive Reason where
  /-- "expected {jsonType}, got {got}". -/
  | expected (jsonType got : String)
  /-- "{value!r} not one of {values}". -/
  | notOneOf (value : Argument) (values : List Json)
  /-- "{value!r} not a valid {enum}". -/
  | notValid (value : Argument) (enum : String)
  /-- "[{index}]: {reason}". -/
  | item (index : ℕ) (reason : Reason)
  /-- "[{key!r}]: {reason}". -/
  | entry (key : PyStr) (reason : Reason)
  /-- "missing required field '{name}'". -/
  | missing (name : String)
  /-- "{name}: {reason}". -/
  | field (name : PyStr) (reason : Reason)
  /-- "expected an upload reference with a string 'upload_id'". -/
  | uploadReference

def typeName : Argument → String
  | .none => "NoneType"
  | .bool _ => "bool"
  | .int _ => "int"
  | .float _ => "float"
  | .str _ => "str"
  | .list _ => "list"
  | .dict _ => "dict"
  | .object _ => "UploadedFile"

namespace Primitive

def jsonType : Primitive → String
  | bool => "boolean"
  | int => "integer"
  | float => "number"
  | str => "string"

/-- Whether a value is of a primitive type: a boolean is no number, and an integral float is an
integer. -/
def isInstance : Primitive → Argument → Bool
  | bool, .bool _ => true
  | int, value => value.isIntegral
  | float, value => value.isNumber
  | str, .str _ => true
  | bool, _ | str, _ => false

end Primitive

def uploadId? : Argument → Option PyStr
  | .dict entries =>
    match Value.lookup entries "upload_id" with
    | some (.str id) => some id
    | _ => none
  | _ => none

namespace TypeSpec

mutual

/-- `TypeSpec.check`: the reason why a value does not fit, if it does not. -/
def check : TypeSpec → Argument → Option Reason
  | any, _ => none
  | primitive pyType, value =>
    if pyType.isInstance value then none else some (.expected pyType.jsonType (typeName value))
  | literal values, value => if value.isIn true values then none else some (.notOneOf value values)
  | enum name members, value => if value.isIn true members then none else some (.notValid value name)
  | list item, value =>
    match value with
    | .list items => items.zipIdx.findSome? fun e => (check item e.1).map (.item e.2)
    | value => some (.expected "array" (typeName value))
  | dict spec, value =>
    match value with
    | .dict entries => entries.findSome? fun e => (check spec e.2).map (.entry e.1)
    | value => some (.expected "object" (typeName value))
  | dataclass fields required, value =>
    match value with
    | .dict entries =>
      match required.find? fun name => (Value.lookup entries name).isNone with
      | some name => some (.missing name)
      | none => entries.findSome? fun e => (checkField fields e.1 e.2).map (.field e.1)
    | value => some (.expected "object" (typeName value))
  | optional inner, value =>
    match value with
    | .none => none
    | value => check inner value
  | upload, value =>
    match value with
    | .object _ => none
    | value => if (uploadId? value).isSome then none else some .uploadReference

/-- The check of an entry of a dataclass, which a field it does not declare passes. -/
def checkField : List (String × TypeSpec) → PyStr → Argument → Option Reason
  | [], _, _ => none
  | (name, spec) :: fields, key, value =>
    if key = .text name then check spec value else checkField fields key value

end

end TypeSpec

-- The equations of the recursive functions, for the proofs about them.
attribute [local simp] TypeSpec.check TypeSpec.checkField

end ReactorRuntime.Interface
