import ReactorRuntime.Core.Fields
import ReactorRuntime.Interface.TypeSpec
import ReactorRuntime.TransitionSystem.Basic
import Mathlib.Data.Finset.Basic

/-!
# Declarations of states, commands and messages

What the definition of a subclass of `InputState`, `Command` or `ModelMessage` makes of the fields
in its body: the records that the runtime reads (`declare`, `inherit`), the class attributes, and
the dataclass.

A class is defined after the classes it inherits from.  A run of `hierarchy` is a list of class
statements, each with what the language makes its `__mro__`, the closest base first; a plain mixin
is a class that has attributes and no record.  A statement that raises is no step.

Left out: the names of commands and messages, the registry of messages, and the texts of the errors.
-/

namespace ReactorRuntime.Declarations

open ReactorRuntime.Core (Attribute DataclassField FieldInfo Objects Table applyDataclass
  inheritedRecord raisesInvalid raisesNotStatic)
open ReactorRuntime.Interface (TypeSpec)

/-- What the hints of a class say of an annotation.  `type none` is a type that `TypeSpec.of`
refuses. -/
inductive Annotation where
  | classVar
  | type (spec : Option TypeSpec)

def isUpload : TypeSpec → Bool
  | .upload | .optional .upload => true
  | _ => false

structure ClassBody (V Info : Type) where
  annotations : List (String × Annotation)
  attributes : Table (Attribute V Info)
  /-- The annotations are a mapping. -/
  nodup : (annotations.map Prod.fst).Nodup

structure Class (Record V Info : Type) where
  record : Record
  attributes : Table (Attribute V Info)
  fields : Table (DataclassField V Info)

/-- What the loop over the annotations makes of one: no field, or a field of the record that is
required, or one whose class attribute is the one given. -/
inductive Declaration (Entry V Info : Type) where
  | classVar
  | required (entry : Entry)
  | defaulted (entry : Entry) (value : Attribute V Info)

namespace Declaration

variable {Entry V Info : Type}

/-- The field of the record that is declared. -/
def recorded : Declaration Entry V Info → Option Entry
  | classVar => none
  | required entry => some entry
  | defaulted entry _ => some entry

def value? : Declaration Entry V Info → Option (Attribute V Info)
  | defaulted _ value => some value
  | _ => none

def isClassVar : Declaration Entry V Info → Bool
  | classVar => true
  | _ => false

/-- Whether the field is declared without a default. -/
def isRequired : Declaration Entry V Info → Bool
  | required _ => true
  | _ => false

end Declaration

/-! ### Class statements -/

/-- How the subclasses of a declaration base are made. -/
structure Family (Record Entry V Info : Type) where
  /-- What an annotation of the body declares, by the class attribute of that name; `none` where it
  raises. -/
  declare : String → Annotation → Option (Attribute V Info) → Option (Declaration Entry V Info)
  /-- The record that the bases leave, the closest first. -/
  inherit : List Record → Record
  /-- The record with a name declared. -/
  apply : Record → String → Declaration Entry V Info → Record

section Build

variable {Record Entry V Info : Type} (py : Objects V) (family : Family Record Entry V Info)

def declareAll (attributes : Table (Attribute V Info)) :
    List (String × Annotation) → Option (List (String × Declaration Entry V Info))
  | [] => some []
  | (name, hint) :: annotations => do
    let declaration ← family.declare name hint (attributes.lookup name)
    let declarations ← declareAll attributes annotations
    some ((name, declaration) :: declarations)

/-- `setattr(cls, name, default)`, of a field with a default. -/
def setDefault (attributes : Table (Attribute V Info))
    (declaration : String × Declaration Entry V Info) : Table (Attribute V Info) :=
  match declaration.2.value? with
  | none => attributes
  | some value => attributes.insert declaration.1 value

/-- The hook of a declaration base: the record and the dataclass of a new subclass. -/
def build (body : ClassBody V Info) (mro : List (Class Record V Info)) :
    Option (Class Record V Info) := do
  let declarations ← declareAll family body.attributes body.annotations
  let record := declarations.foldl (fun record declaration =>
    family.apply record declaration.1 declaration.2) (family.inherit (mro.map Class.record))
  let required := (declarations.filter fun declaration => declaration.2.isRequired).map Prod.fst
  let (fields, attributes) := applyDataclass py (declarations.foldl setDefault body.attributes)
    (declarations.map fun declaration => (declaration.1, declaration.2.isClassVar))
    (mro.map fun base => (base.attributes, base.fields)) required
  some { record, attributes, fields }

/-- A class statement, with the places of the classes of its `__mro__`. -/
inductive Statement (V Info : Type) where
  | mixin (attributes : Table (Attribute V Info))
  | subclass (body : ClassBody V Info) (mro : List ℕ)

def classesAt (classes : List (Class Record V Info)) (places : List ℕ) :
    Option (List (Class Record V Info)) :=
  places.mapM fun place => classes[place]?

def define (classes : List (Class Record V Info)) :
    Statement V Info → Option (List (Class Record V Info))
  | .mixin attributes =>
    some (classes ++ [{ record := family.inherit [], attributes, fields := ∅ }])
  | .subclass body places => do
    let mro ← classesAt classes places
    let cls ← build py family body mro
    some (classes ++ [cls])

/-- The classes of a hierarchy, in the order in which they are defined. -/
def hierarchy : TransitionSystem (List (Class Record V Info)) (Statement V Info) where
  init := []
  step := define py family

end Build

/-! ### States -/

section InputState

variable {V : Type}

structure PublicField (V : Type) where
  info : FieldInfo V
  /-- History: whether the annotation that declared the field is an upload. -/
  upload : Bool

inductive StateField (V : Type) where
  | publicField (field : PublicField V)
  | privateField

structure StateRecord (V : Type) where
  publicFields : Table (PublicField V) := ∅
  privateFields : Finset String := ∅
  uploadFields : Finset String := ∅

def isPrivate (name : String) : Bool := name.toList.head? = some '_'

/-- The records that the bases leave.  Whether a name is an upload follows the base that wins the
field. -/
def inheritState (records : List (StateRecord V)) : StateRecord V where
  publicFields := inheritedRecord (records.map StateRecord.publicFields)
  privateFields := records.reverse.foldl (fun names base => names ∪ base.privateFields) ∅
  uploadFields := records.reverse.foldl (fun names base =>
    names.filter (fun name => name ∉ base.publicFields) ∪
      base.uploadFields.filter fun name => name ∈ base.publicFields) ∅

def applyState (record : StateRecord V) (name : String) :
    Declaration (StateField V) V (FieldInfo V) → StateRecord V
  | .classVar => {
      publicFields := record.publicFields.erase name
      privateFields := record.privateFields.erase name
      uploadFields := record.uploadFields.erase name }
  | .required .privateField | .defaulted .privateField _ => { record with
      privateFields := insert name record.privateFields
      uploadFields := record.uploadFields.erase name }
  | .required (.publicField field) | .defaulted (.publicField field) _ => { record with
      publicFields := record.publicFields.insert name field
      uploadFields :=
        if field.upload then insert name record.uploadFields
        else record.uploadFields.erase name }

variable [DecidableEq V] (py : Objects V)

/-- One turn of the loop of `InputState.__init_subclass__`. -/
def declareState (name : String) (hint : Annotation)
    (raw : Option (Attribute V (FieldInfo V))) :
    Option (Declaration (StateField V) V (FieldInfo V)) :=
  match hint with
  | .classVar => some .classVar
  | .type spec =>
    if isPrivate name then raw.map fun raw => .defaulted .privateField raw
    else if spec.any isUpload then
      match raw with
      | some (.info info) => some (.defaulted (.publicField ⟨info, true⟩) (.object py.none))
      | _ => some (.defaulted (.publicField ⟨{ default := some py.none }, true⟩) (.object py.none))
    else
      match raw with
      | some (.info info) =>
        match info.default with
        | none => some (.required (.publicField ⟨info, false⟩))
        | some default =>
          if raisesInvalid py info default then none
          else some (.defaulted (.publicField ⟨info, false⟩) (.object default))
      | some (.object value) =>
        if raisesNotStatic py value then none
        else some (.defaulted (.publicField ⟨{ default := some value }, false⟩) (.object value))
      | none => some (.required (.publicField ⟨{}, false⟩))

def inputState : Family (StateRecord V) (StateField V) V (FieldInfo V) where
  declare := declareState py
  inherit := inheritState
  apply := applyState

end InputState

/-! ### Commands and messages -/

/-- A field of a command or a message: its resolved type, and what was declared of it. -/
structure TypedField (Info : Type) where
  spec : TypeSpec
  info : Info

def applyTyped {V Info : Type} (record : Table (TypedField Info)) (name : String)
    (declaration : Declaration (TypedField Info) V Info) : Table (TypedField Info) :=
  match declaration.recorded with
  | none => record.erase name
  | some entry => record.insert name entry

/-- What an author declares of a field: the default, what is declared by an object alone, and
whether a default is refused. -/
structure InfoKind (V Info : Type) where
  default : Info → Option V
  plain : Option V → Info
  refuses : Info → V → Bool
  default_plain (value : Option V) : default (plain value) = value

section Typed

variable {V Info : Type} [DecidableEq V] (py : Objects V) (kind : InfoKind V Info)

/-- One turn of the loop of `_build_command` and of `_build_message`; `fits` is whether a value
passes the check of a type. -/
def declareTyped (fits : TypeSpec → V → Bool) (hint : Annotation)
    (raw : Option (Attribute V Info)) : Option (Declaration (TypedField Info) V Info) :=
  match hint with
  | .classVar => some .classVar
  | .type none => none
  | .type (some spec) =>
    match raw with
    | some (.info info) =>
      match kind.default info with
      | none => some (.required ⟨spec, info⟩)
      | some default =>
        if kind.refuses info default then none
        else if default ≠ py.none ∧ fits spec default = false then none
        else some (.defaulted ⟨spec, info⟩ (.object default))
    | some (.object value) =>
      if py.isField value then none
      else if raisesNotStatic py value then none
      else if value ≠ py.none ∧ fits spec value = false then none
      else some (.defaulted ⟨spec, kind.plain (some value)⟩ (.object value))
    | none => some (.required ⟨spec, kind.plain none⟩)

/-- The subclasses of a base whose fields have a resolved type. -/
def typedFamily (fits : TypeSpec → V → Bool) :
    Family (Table (TypedField Info)) (TypedField Info) V Info where
  declare _ := declareTyped py kind fits
  inherit := inheritedRecord
  apply := applyTyped

end Typed

section Command

variable {V : Type} [DecidableEq V] (py : Objects V)

def inputFieldKind : InfoKind V (FieldInfo V) where
  default := FieldInfo.default
  plain default := { default }
  refuses := raisesInvalid py
  default_plain _ := rfl

abbrev CommandField (V : Type) := TypedField (FieldInfo V)

def commandUploads (fields : Table (CommandField V)) : Finset String :=
  fields.keys.toFinset.filter fun name =>
    (fields.lookup name).any fun field => isUpload field.spec

/-- The subclasses of `Command`. -/
def command (fits : TypeSpec → V → Bool) :
    Family (Table (CommandField V)) (CommandField V) V (FieldInfo V) :=
  typedFamily py (inputFieldKind py) fits

structure MessageFieldInfo (V : Type) where
  default : Option V := none
  description : Option String := none
  deriving DecidableEq

/-- What `MessageField` attaches, with the check of a message's default. -/
def messageFieldKind : InfoKind V (MessageFieldInfo V) where
  default := MessageFieldInfo.default
  plain default := { default }
  refuses _ := raisesNotStatic py
  default_plain _ := rfl

/-- The subclasses of `ModelMessage`.  A field's description and default are those of its
`MessageFieldInfo`. -/
def modelMessage (fits : TypeSpec → V → Bool) :
    Family (Table (TypedField (MessageFieldInfo V))) (TypedField (MessageFieldInfo V)) V
      (MessageFieldInfo V) :=
  typedFamily py (messageFieldKind py) fits

end Command

end ReactorRuntime.Declarations
