import Mathlib.Data.List.AList

/-!
# Field records and dataclasses

A declaration base keeps a record of the fields that each subclass declares, and turns the subclass
into a dataclass.  The record starts from a merge of the bases' records (`inheritedRecord`); the
dataclass merges the fields of the same bases, in the same order, by a rule of the language
(`processClass`), and reads the default of a field off the class.

An author's object is of an arbitrary type, of which an `Objects` says what a declaration looks at.

Left out: the order of the fields, and with it which of them are keyword-only; a `default_factory`
is an object like another.  A class body that names its own `__dataclass_fields__`, and the
annotations that only a dataclass knows (`InitVar`, `KW_ONLY`), are left out as well.
-/

namespace ReactorRuntime.Core

/-- What is looked up by the name of a field. -/
abbrev Table (α : Type) := AList fun _ : String => α

/-- What a declaration looks at in an object. -/
structure Objects (V : Type) where
  /-- `None`. -/
  none : V
  /-- `dataclasses.MISSING`. -/
  missing : V
  /-- Whether the object is what a raw `dataclasses.field(...)` returns. -/
  isField : V → Bool
  /-- Whether the object is a `list`, a `dict` or a `set`. -/
  isMutable : V → Bool
  /-- The default of a dataclass field whose class attribute is the object: the object itself,
  unless it is a raw `dataclasses.field(...)`, or a descriptor. -/
  default : V → Option V
  default_none : default none = some none
  default_missing : default missing = Option.none

/-- A class attribute: an object, or what `InputField` or `MessageField` returned. -/
inductive Attribute (V Info : Type) where
  | object (value : V)
  | info (info : Info)
  deriving DecidableEq

/-- A field of a dataclass with the default its constructor has, or what a `ClassVar` leaves in its
place. -/
inductive DataclassField (V Info : Type) where
  | field (default : Option (Attribute V Info))
  | classVar
  deriving DecidableEq

def DataclassField.isField {V Info : Type} : DataclassField V Info → Bool
  | field _ => true
  | classVar => false

/-- `inherited_record`, of the records of the bases, the closest first. -/
def inheritedRecord {α : Type} (records : List (Table α)) : Table α :=
  records.reverse.foldl (fun merged record => record ∪ merged) ∅

section Dataclass

variable {V Info : Type} (py : Objects V)

/-- `getattr(cls, name)`, in the attributes of the class and of its bases, the closest first. -/
def getattr (attributes : Table (Attribute V Info)) (bases : List (Table (Attribute V Info)))
    (name : String) : Option (Attribute V Info) :=
  (attributes.lookup name).or (bases.findSome? fun base => base.lookup name)

/-- The default of a dataclass field, read off the class. -/
def readDefault : Option (Attribute V Info) → Option (Attribute V Info)
  | some (.object value) => (py.default value).map .object
  | unread => unread

/-- `dataclasses._process_class`, of a class with the given attributes and annotations; an
annotation is given as whether it is a `ClassVar`. -/
def processClass (attributes : Table (Attribute V Info)) (annotations : List (String × Bool))
    (bases : List (Table (Attribute V Info) × Table (DataclassField V Info))) :
    Table (DataclassField V Info) :=
  annotations.foldl (fun fields hint =>
      fields.insert hint.1 <|
        if hint.2 then .classVar
        else .field (readDefault py (getattr attributes (bases.map Prod.fst) hint.1)))
    (inheritedRecord (bases.map Prod.snd))

/-- `apply_dataclass`: the fields, and the class attributes after.  A required field hides what the
bases have under its name while the class is converted. -/
def applyDataclass (attributes : Table (Attribute V Info)) (annotations : List (String × Bool))
    (bases : List (Table (Attribute V Info) × Table (DataclassField V Info)))
    (required : List String) : Table (DataclassField V Info) × Table (Attribute V Info) :=
  let hidden := required.foldl (fun attributes name =>
    attributes.insert name (.object py.missing)) attributes
  (processClass py hidden annotations bases,
    required.foldl (fun attributes name => attributes.erase name) hidden)

end Dataclass

/-! ### The checks of a default -/

/-- `FieldInfo`: the default, and the values that meet the constraints. -/
structure FieldInfo (V : Type) where
  default : Option V := none
  validate : V → Bool := fun _ => true

section Checks

variable {V : Type} [DecidableEq V] (py : Objects V)

def raisesNotStatic (default : V) : Bool := default ≠ py.none && py.isMutable default

def raisesInvalid (info : FieldInfo V) (default : V) : Bool :=
  default ≠ py.none && (py.isMutable default || !info.validate default)

end Checks

end ReactorRuntime.Core
