import ReactorRuntime.Interface.Fields

/-!
# The model contract

The commands a model declares, each with the type and the constraints of its fields, and `validate`,
which checks the arguments a client sends against them.

Left out: how a validated argument is coerced, and what a command is dispatched to.
-/

namespace ReactorRuntime.Interface

open ReactorRuntime.Python

structure CommandField where
  spec : TypeSpec
  info : FieldInfo

/-- The `__command_fields__` of a command, each under a name of its own. -/
structure CommandSpec where
  fields : List (String × CommandField)
  distinct : (fields.map Prod.fst).Nodup

structure ModelContract where
  commands : List (String × CommandSpec)

inductive Refusal where
  | unknownCommand
  | unexpectedArgument
  | missingArgument
  | type (reason : Reason)
  | constraint (violation : Violation)

structure ContractError where
  field : PyStr
  reason : Refusal

abbrev Arguments := List (PyStr × Argument)

namespace CommandSpec

def declares (spec : CommandSpec) (arg : PyStr) : Bool := spec.fields.any fun f => arg = .text f.1

end CommandSpec

def checkArgument (rawArgs : Arguments) (field : String × CommandField) :
    Except ContractError (Option (String × Argument)) :=
  match Value.lookup rawArgs field.1 with
  | some value =>
    match field.2.spec.check value with
    | some reason => .error ⟨.text field.1, .type reason⟩
    | none =>
      match validateField value field.2.info with
      | some violation => .error ⟨.text field.1, .constraint violation⟩
      | none => .ok (some (field.1, value))
  | none =>
    match field.2.info.default with
    | some _ => .ok none
    | none => .error ⟨.text field.1, .missingArgument⟩

namespace ModelContract

variable (contract : ModelContract)

def command? (name : String) : Option CommandSpec :=
  (contract.commands.find? fun c => c.1 = name).map Prod.snd

def validate (name : String) (rawArgs : Arguments) :
    Except ContractError (List (String × Argument)) :=
  match contract.command? name with
  | none => .error ⟨.text name, .unknownCommand⟩
  | some spec =>
    match rawArgs.find? fun arg => !spec.declares arg.1 with
    | some arg => .error ⟨arg.1, .unexpectedArgument⟩
    | none => (spec.fields.mapM (checkArgument rawArgs)).map List.reduceOption

def Accepts (name : String) (rawArgs : Arguments) : Prop :=
  ∃ args, contract.validate name rawArgs = .ok args

end ModelContract

end ReactorRuntime.Interface
