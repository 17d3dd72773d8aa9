import ReactorRuntime.Interface.Declarations
import ReactorRuntime.Lists.Dict

/-!
# Messages under their wire names

What a subclass of `ModelMessage` is called on the wire, the registry in which its schema is found,
and how an instance of it goes out.  The record of its fields and its dataclass are those of
`Declarations`; here a mixin may be a dataclass as well.

An instance has a value for each field of its dataclass, which hides the class attribute of the same
name.

Left out: class attributes that are descriptors, a class that overrides `to_wire_format`, and, as in
`Declarations`, field names that the language and the dataclass machinery keep to themselves
(`__message_fields__`, `__dataclass_fields__`).
-/

namespace ReactorRuntime.Messages

open ReactorRuntime.Core (Attribute DataclassField Objects Table)
open ReactorRuntime.Declarations (ClassBody Annotation MessageFieldInfo TypedField)
open ReactorRuntime.Interface (TypeSpec)
open ReactorRuntime.Lists

/-! ### Wire names -/

/-- `_PASCAL_BOUNDARY`, between a character and what follows it. -/
def isBoundary (before : Char) (rest : List Char) : Bool :=
  match rest with
  | [] => false
  | c :: rest => c.isUpper &&
      (before.isLower || before.isDigit || before.isUpper && rest.head?.any Char.isLower)

def separate : List Char → List Char
  | [] => []
  | c :: rest => if isBoundary c rest then c :: '_' :: separate rest else c :: separate rest

structure Names (V : Type) extends Objects V where
  /-- A string as an object. -/
  str : String → V
  /-- `str.lower`. -/
  lower : String → String
  /-- Whether an object can be a key. -/
  hashable : Attribute V (MessageFieldInfo V) → Bool
  str_injective : Function.Injective str

def pascalToSnake (lower : String → String) (name : String) : String :=
  lower (String.ofList (separate name.toList))

example : pascalToSnake String.toLower "SetBrightness" = "set_brightness" := by decide +kernel

/-! ### Classes -/

variable {V : Type}

abbrev Name (V : Type) := Attribute V (MessageFieldInfo V)

/-- A class with the record of its fields, its attributes and its dataclass. -/
abbrev Fields (V : Type) :=
  Declarations.Class (Table (TypedField (MessageFieldInfo V))) V (MessageFieldInfo V)

/-- A class: a message, which has a wire name of its own, or a mixin. -/
structure Class (V : Type) where
  pyName : String
  cls : Fields V
  wireName : Option (Name V)

/-- The classes that are defined, and `MESSAGE_REGISTRY`, with the places of its classes. -/
structure State (V : Type) where
  classes : List (Class V) := []
  registry : List (Name V × ℕ) := []

/-- A class statement, with the places of the classes of its `__mro__`. -/
inductive Statement (V : Type) where
  /-- A mixin, with what it has in `__dataclass_fields__`. -/
  | mixin (pyName : String) (attributes : Table (Name V))
      (fields : Table (DataclassField V (MessageFieldInfo V)))
  /-- A subclass of `ModelMessage`, with its docstring. -/
  | message (pyName : String) (doc : V) (body : ClassBody V (MessageFieldInfo V)) (mro : List ℕ)

/-- The body once `user_doc` is set. -/
def documented (doc : V) (body : ClassBody V (MessageFieldInfo V)) :
    ClassBody V (MessageFieldInfo V) :=
  { body with attributes := body.attributes.insert "user_doc" (.object doc) }

def classesAt (classes : List (Class V)) (places : List ℕ) : Option (List (Class V)) :=
  places.mapM fun place => classes[place]?

section Define

variable [DecidableEq V] (py : Names V) (fits : TypeSpec → V → Bool)

/-- `cls.name`, which is derived unless the class has a `name` of its own. -/
def wireName (pyName : String) (attributes : Table (Name V)) : Name V :=
  (attributes.lookup "name").getD (.object (py.str (pascalToSnake py.lower pyName)))

def initSubclass (pyName : String) (doc : V) (body : ClassBody V (MessageFieldInfo V))
    (mro : List (Class V)) : Option (Class V) := do
  let cls ← Declarations.build py.toObjects (Declarations.modelMessage py.toObjects fits)
    (documented doc body) (mro.map Class.cls)
  let name := wireName py pyName cls.attributes
  if py.hashable name then
    some { pyName, wireName := name
           cls := { cls with attributes := cls.attributes.insert "name" name } }
  else none

def State.define (s : State V) : Statement V → Option (State V)
  | .mixin pyName attributes fields =>
    some { s with classes := s.classes ++
      [{ pyName, wireName := none, cls := { record := ∅, attributes, fields } }] }
  | .message pyName doc body places => do
    let mro ← classesAt s.classes places
    let c ← initSubclass py fits pyName doc body mro
    let name ← c.wireName
    some { classes := s.classes ++ [c], registry := Dict.set s.registry name s.classes.length }

def program : TransitionSystem (State V) (Statement V) where
  init := {}
  step := State.define py fits

end Define

/-! ### Instances -/

def Class.fields (c : Class V) : List String :=
  c.cls.fields.keys.filter fun name => (c.cls.fields.lookup name).any DataclassField.isField

structure Message (V : Type) where
  type : Class V
  values : String → V

/-- `{"type": ..., "data": ...}`. -/
structure Wire (V : Type) where
  type : Name V
  data : List (String × V)
  deriving DecidableEq

namespace Message

variable (m : Message V)

/-- The attribute `name` of the instance. -/
def name : Option (Name V) :=
  if "name" ∈ m.type.fields then some (.object (m.values "name")) else m.type.wireName

/-- `to_wire_format`, unless a field hides it. -/
def toWireFormat : Option (Wire V) :=
  if "to_wire_format" ∈ m.type.fields then none
  else m.name.map fun name =>
    { type := name, data := m.type.fields.map fun field => (field, m.values field) }

/-- What `_broadcast_message` hands on: what it keeps for the next saved step, what it has encoded,
and what it calls an observer with. -/
structure Broadcast (V : Type) where
  saved : Wire V
  encoded : Wire V
  observed : Wire V

def broadcast : Option (Broadcast V) := do
  let wire ← m.toWireFormat
  let name ← m.name
  some
    { saved := wire
      encoded := { type := name, data := wire.data }
      observed := { type := name, data := wire.data } }

/-- What `_send_addressed` hands on of a message: what it has encoded, or calls an observer with. -/
structure Addressed (V : Type) where
  encoded : Wire V
  observed : Wire V

def sendAddressed : Option (Addressed V) := do
  let wire ← m.toWireFormat
  let name ← m.name
  some
    { encoded := { type := name, data := wire.data }
      observed := { type := name, data := wire.data } }

end Message

/-! ### The schema -/

/-- The messages of `render_schema`: the fields of each name in the registry. -/
def State.schema (s : State V) : List (Name V × List String) :=
  s.registry.filterMap fun entry =>
    (s.classes[entry.2]?).map fun c => (entry.1, c.cls.record.keys)

end ReactorRuntime.Messages
