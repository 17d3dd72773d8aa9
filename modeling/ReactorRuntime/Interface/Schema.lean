import ReactorRuntime.Interface.Contract
import ReactorRuntime.JsonSchema.Basic

/-!
# The published schema

How a field type, the constraints of a field, and the fields of a command are rendered as JSON
Schema.

Left out: the rest of the document, which is about tracks, messages and responses.
-/

namespace ReactorRuntime.Interface

open ReactorRuntime.Python
open ReactorRuntime.JsonSchema

/-- The type that all of some values have: booleans, integers, floats, or strings. -/
def memberType (values : List Json) : Option JsonType :=
  if values.isEmpty then none
  else if values.all (fun v => v matches .bool _) then some .boolean
  else if values.all (fun v => v matches .int _) then some .integer
  else if values.all (fun v => v matches .float _) then some .number
  else if values.all (fun v => v matches .str _) then some .string
  else none

def enumSchema (values : List Json) : Schema :=
  match memberType values with
  | some t => [.type t, .enum values]
  | none => [.enum values]

def Primitive.schemaType : Primitive → JsonType
  | bool => .boolean
  | int => .integer
  | float => .number
  | str => .string

mutual

def TypeSpec.toJsonSchema : TypeSpec → Schema
  | .any => []
  | .primitive pyType => [.type pyType.schemaType]
  | .literal values => enumSchema values
  | .enum _ members => enumSchema members
  | .list item => [.type .array, .items item.toJsonSchema]
  | .dict value => [.type .object, .additionalProperties value.toJsonSchema]
  | .dataclass fields required =>
    [.type .object, .properties (TypeSpec.fieldSchemas fields)] ++
      if required.isEmpty then [] else [.required required]
  | .optional inner => [.anyOf [inner.toJsonSchema, [.type .null]]]
  | .upload => [.ref "#/components/schemas/ReactorUploadReference"]

def TypeSpec.fieldSchemas : List (String × TypeSpec) → List (String × Schema)
  | [] => []
  | (name, spec) :: fields => (name, spec.toJsonSchema) :: TypeSpec.fieldSchemas fields

end

/-- What `_merge_constraints` sets, in its order. -/
def constraintKeywords (info : FieldInfo) : List Keyword :=
  (info.description.toList.filter fun text => text ≠ "").map .description ++
    info.ge.toList.map .minimum ++ info.le.toList.map .maximum ++
    info.minLength.toList.map .minLength ++ info.maxLength.toList.map .maxLength ++
    info.choices.toList.map .enum ++ [.extension "x-reactor-moderate" (.bool info.moderate)]

def mergeConstraints (schema : Schema) (info : FieldInfo) : Schema :=
  (constraintKeywords info).foldl Schema.set schema

def commandFieldSchema (field : CommandField) : Schema :=
  mergeConstraints ((field.info.default.toList.map .default).foldl Schema.set field.spec.toJsonSchema)
    field.info

def bodySchema (properties : List (String × Schema)) : Schema :=
  let required := (properties.filter fun p => p.2.all fun k => k.key ≠ "default").map Prod.fst
  [.type .object, .properties properties] ++ if required.isEmpty then [] else [.required required]

def CommandSpec.toSchema (spec : CommandSpec) : Schema :=
  bodySchema (spec.fields.map fun f => (f.1, commandFieldSchema f.2))

def uploadReferenceSchema : Schema := [
  .type .object,
  .format "reactor-upload-reference",
  .description "Reference to a file uploaded via the Reactor upload protocol.",
  .properties [
    ("upload_id", [.type .string, .format "uuid"]),
    ("name", [.type .string]),
    ("mime_type", [.type .string]),
    ("size", [.type .integer])],
  .required ["upload_id", "name", "mime_type", "size"]]

/-- The components of the document that the schema of a command refers to. -/
def components : Components UploadedFile := fun component =>
  if component = "#/components/schemas/ReactorUploadReference" then
    uploadReferenceSchema.valid fun _ _ => false
  else fun _ => false

end ReactorRuntime.Interface
