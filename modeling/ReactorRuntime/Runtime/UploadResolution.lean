import ReactorRuntime.Interface.Contract

/-!
# Resolving upload references

`resolve_uploads` follows the declared type of an argument and fetches each reference that stands
where the type declares an upload; it returns nothing where a fetch raises.  The runner resolves the
arguments of a command by it, and checks the commands of a starting input before a session starts.

Left out: the time a fetch waits, and that the entries of a container are fetched together.
-/

namespace ReactorRuntime.Runtime

open ReactorRuntime.Python
open ReactorRuntime.Interface

/-- `Fetch`: nothing where it raises. -/
abbrev Fetch := PyStr → Option UploadedFile

mutual

def declaresUpload : TypeSpec → Bool
  | .upload => true
  | .optional inner => declaresUpload inner
  | .list item => declaresUpload item
  | .dict value => declaresUpload value
  | .dataclass fields _ => declaresUploads fields
  | .any | .primitive _ | .literal _ | .enum _ _ => false

def declaresUploads : List (String × TypeSpec) → Bool
  | [] => false
  | (_, spec) :: fields => declaresUpload spec || declaresUploads fields

end

def declaresUploadAt (fields : List (String × TypeSpec)) (key : PyStr) : Bool :=
  match fields.find? fun f => key = .text f.1 with
  | some f => declaresUpload f.2
  | none => false

variable (fetch : Fetch)

mutual

def resolveUploads : TypeSpec → Argument → Option Argument
  | .optional inner, value =>
    match value with
    | .none => some .none
    | value => resolveUploads inner value
  | .list item, value =>
    match value with
    | .list items =>
      if declaresUpload item then (items.mapM fun v => resolveUploads item v).map .list
      else some (.list items)
    | value => some value
  | .dict spec, value =>
    match value with
    | .dict entries =>
      if declaresUpload spec then
        (entries.mapM fun e => (resolveUploads spec e.2).map fun v => (e.1, v)).map .dict
      else some (.dict entries)
    | value => some value
  | .dataclass fields _, value =>
    match value with
    | .dict entries =>
      if entries.any fun e => declaresUploadAt fields e.1 then
        (entries.mapM fun e => (resolveEntry fields e.1 e.2).map fun v => (e.1, v)).map .dict
      else some (.dict entries)
    | value => some value
  | .upload, value =>
    match uploadId? value with
    | some id => (fetch id).map .object
    | none => some value
  | .any, value | .primitive _, value | .literal _, value | .enum _ _, value => some value

/-- An entry of a mapping, resolved by the field of the dataclass under its key, if there is one. -/
def resolveEntry : List (String × TypeSpec) → PyStr → Argument → Option Argument
  | [], _, value => some value
  | (name, spec) :: fields, key, value =>
    if key = .text name then resolveUploads spec value else resolveEntry fields key value

end

def inlineUploadFields (contract : ModelContract) (name : String) (args : Arguments) :
    List (String × TypeSpec) :=
  match contract.command? name with
  | some spec => (spec.fields.filter fun f =>
      (Value.lookup args f.1).isSome && declaresUpload f.2.spec).map fun f => (f.1, f.2.spec)
  | none => []

/-- The arguments once those that carry an upload are resolved, one after the other. -/
def resolveInline : List (String × TypeSpec) → Arguments → Option Arguments
  | [], args => some args
  | (param, spec) :: inline, args => do
    let value ← Value.lookup args param
    let resolved ← resolveUploads fetch spec value
    resolveInline inline (Value.assign args (.text param) resolved)

/-- The arguments once the uploads that travel beside them are put in. -/
def putUploads : List (String × PyStr) → Arguments → Option Arguments
  | [], args => some args
  | (param, id) :: uploads, args => do
    let file ← fetch id
    putUploads uploads (Value.assign args (.text param) (.object file))

def resolveCommandUploads (contract : ModelContract) (name : String) (rawArgs : Arguments)
    (uploads : List (String × PyStr)) : Option Arguments := do
  let args ← putUploads fetch uploads rawArgs
  resolveInline fetch (inlineUploadFields contract name rawArgs) args

structure StartingInput.Command where
  command : String
  data : Arguments

structure StartingInput where
  state : List (String × Argument)
  commands : List StartingInput.Command

namespace StartingInput

/-- The command that a key of the state runs as. -/
def setter (entry : String × Argument) : Command :=
  ⟨"set_" ++ entry.1, [(.text entry.1, entry.2)]⟩

def asCommands (input : StartingInput) : List Command :=
  input.state.map setter ++ input.commands

def firstRefusal (contract : ModelContract) (input : StartingInput) :
    Option (Command × ContractError) :=
  input.asCommands.findSome? fun c =>
    match contract.validate c.command c.data with
    | .ok _ => none
    | .error e => some (c, e)

end StartingInput

-- The equations of the recursive functions, for the proofs about them.
attribute [local simp] declaresUpload declaresUploads resolveUploads resolveEntry

end ReactorRuntime.Runtime
