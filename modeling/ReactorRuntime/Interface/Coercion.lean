import ReactorRuntime.Interface.Contract

/-!
# Coercing arguments

`TypeSpec.coerce`, which puts an accepted value into its Python form, and the arguments that
`ModelContract.validate` constructs a command from.

An enumeration is known by its name, and a member of it by its place.  A literal, and what is inside
a dataclass, stays as it came.
-/

namespace ReactorRuntime.Interface

open ReactorRuntime.Python

/-- An instance of a class that is not JSON's. -/
inductive Instance where
  | file (file : UploadedFile)
  /-- A member of an enumeration. -/
  | member (enum : String) (index : ℕ)
  deriving DecidableEq

/-- A value in its Python form. -/
abbrev Coerced := Value Instance

mutual

def ofArgument : Argument → Coerced
  | .none => .none
  | .bool b => .bool b
  | .int n => .int n
  | .float x => .float x
  | .str s => .str s
  | .list items => .list (ofItems items)
  | .dict entries => .dict (ofEntries entries)
  | .object file => .object (.file file)

def ofItems : List Argument → List Coerced
  | [] => []
  | v :: items => ofArgument v :: ofItems items

def ofEntries : List (PyStr × Argument) → List (PyStr × Coerced)
  | [] => []
  | (key, v) :: entries => (key, ofArgument v) :: ofEntries entries

end

/-- What a value yields when it is iterated over: a mapping its keys, a string its characters. -/
def iterate : Coerced → Except PyError (List Coerced)
  | .list items => .ok items
  | .dict entries => .ok (entries.map fun e => .str e.1)
  | .str s => .ok (s.points.map fun p => .str (.ofPoints [p]))
  | .none | .bool _ | .int _ | .float _ | .object _ => .error .typeError

/-- `enum_cls(value)`: a member is itself, and any other value is looked up among the members'. -/
def enumMember (name : String) (members : List Json) (value : Coerced) : Except PyError Coerced :=
  match value with
  | .object (.member enum index) =>
    if enum = name then .ok (.object (.member enum index)) else .error .valueError
  | value =>
    match members.findIdx? fun member => value.equals true member with
    | some index => .ok (.object (.member name index))
    | none => .error .valueError

/-- `PrimitiveSpec.coerce`: a float for an integer is narrowed. -/
def Primitive.coerce (pyType : Primitive) (value : Coerced) : Except PyError Coerced :=
  match pyType, value with
  | .int, .float x => (Texts.intOfFloat x).map .int
  | _, value => .ok value

def TypeSpec.coerce : TypeSpec → Coerced → Except PyError Coerced
  | .primitive pyType, value => pyType.coerce value
  | .enum name members, value => enumMember name members value
  | .list item, value =>
    match iterate value with
    | .ok items => (items.mapM fun v => coerce item v).map .list
    | .error e => .error e
  | .dict spec, value =>
    match value.items with
    | .ok entries => (entries.mapM fun e => (coerce spec e.2).map fun v => (e.1, v)).map .dict
    | .error e => .error e
  | .optional inner, value =>
    match value with
    | .none => .ok .none
    | value => coerce inner value
  -- these take what `TypeSpec` does by default
  | .any, value | .literal _, value | .dataclass _ _, value | .upload, value => .ok value

/-- An error that validating a command raises: a `ContractError`, or what a coercion raises. -/
inductive ValidateError where
  | contract (error : ContractError)
  | coercion (error : PyError)

def coerceArgument (rawArgs : Arguments) (field : String × CommandField) :
    Except ValidateError (Option (String × Coerced)) :=
  match checkArgument rawArgs field with
  | .error e => .error (.contract e)
  | .ok none => .ok none
  | .ok (some arg) =>
    match field.2.spec.coerce (ofArgument arg.2) with
    | .ok value => .ok (some (arg.1, value))
    | .error e => .error (.coercion e)

/-- The `kwargs` of `validate`, which the command is constructed from. -/
def ModelContract.kwargs (contract : ModelContract) (name : String) (rawArgs : Arguments) :
    Except ValidateError (List (String × Coerced)) :=
  match contract.command? name with
  | none => .error (.contract ⟨.text name, .unknownCommand⟩)
  | some spec =>
    match rawArgs.find? fun arg => !spec.declares arg.1 with
    | some arg => .error (.contract ⟨arg.1, .unexpectedArgument⟩)
    | none => (spec.fields.mapM (coerceArgument rawArgs)).map List.reduceOption

-- The equations of the recursive functions, for the proofs about them.
attribute [local simp] TypeSpec.coerce ofArgument ofItems ofEntries

end ReactorRuntime.Interface
