import ReactorRuntime.Lists.Dict
import ReactorRuntime.TransitionSystem.Basic

/-!
# Commands over a hierarchy of applications

What the definition of a subclass of `ReactorApp` makes of its commands: the state class it names,
the setters that are generated for the fields of that state, and the walk of `ModelContract.build`
over its `__mro__`, which binds each wire name to a handler or refuses the class.

A class is defined after the classes it inherits from.  A run of `hierarchy` is a list of class
statements, each with what the language makes its `__mro__`, the closest base first, up to
`ReactorApp`; a plain mixin may have handlers and an annotation too.  A class that is refused cannot
be a base.

What is declared of a field (its type, its default and its constraints) and what `@event` keeps of a
method are of arbitrary types.  Left out: the lifecycle hooks, and declarations that are refused by
themselves, whatever the hierarchy (a return annotation, or the type or default of a field, that no
command takes).
-/

namespace ReactorRuntime.AppContract

open Lists

variable {F M : Type}

/-- The name of the command that is generated for a field, and of its method. -/
def setName (field : String) : String := "set_" ++ field

/-- A state class: its `_public_fields`, each with what is declared of it. -/
structure StateClass (F : Type) where
  fields : List (String × F)
  nodup : (fields.map Prod.fst).Nodup

namespace StateClass

def names (state : StateClass F) : List String := state.fields.map Prod.fst

end StateClass

/-- `EventHandler` of a hand-written method. -/
structure EventHandler (M : Type) where
  name : String
  method : M
  deriving DecidableEq

/-- What `vars` of a class has under a name: what its body says, a handler or not, or a setter that
was generated for a field. -/
inductive Attr (F M : Type) where
  | own (handler : Option (EventHandler M))
  | setter (field : String) (declared : F)
  deriving DecidableEq

namespace Attr

def event? : Attr F M → Option (EventHandler M)
  | own handler => handler
  | setter _ _ => none

/-- The command that an attribute claims in an app whose state has the given fields. -/
def command? (fields : List String) : Attr F M → Option String
  | own handler => handler.map EventHandler.name
  | setter field _ => if field ∈ fields then some (setName field) else none

end Attr

/-- The `state` annotation of a class: a type, or a text or another form; with the state class it
stands for, if it stands for one. -/
inductive Annotation (F : Type) where
  | type (target : Option (StateClass F))
  | text (target : Option (StateClass F))

namespace Annotation

def target : Annotation F → Option (StateClass F)
  | type target => target
  | text target => target

end Annotation

/-- A class body: what it says of its names, and its `state` annotation. -/
structure Body (F M : Type) where
  attributes : List (String × Option (EventHandler M))
  annotation : Option ( Annotation F)
  nodup : (attributes.map Prod.fst).Nodup

structure Entry (F M : Type) where
  place : ℕ
  attrName : String
  attr : Attr F M
  deriving DecidableEq

structure Class (F M : Type) where
  place : ℕ
  body : Body F M
  /-- `vars`. -/
  attributes : List (String × Attr F M)
  /-- Its own `__app_state__`. -/
  appState : Option (StateClass F)
  /-- The places of the bases in its `__mro__`. -/
  mro : List ℕ
  /-- What `ModelContract.build` made of an app: the commands, or the text of a `ValueError`. -/
  contract : Option (Except String (List (String × Entry F M)))

namespace Class

variable (c : Class F M)

def claims (fields : List String) : List (String × Entry F M) :=
  c.attributes.filterMap fun e =>
    (e.2.command? fields).map fun name => (name, ⟨c.place, e.1, e.2⟩)

/-- The commands that the body of a class declares by hand. -/
def handWritten : List (String × Entry F M) :=
  c.body.attributes.filterMap fun e =>
    e.2.map fun handler => (handler.name, ⟨c.place, e.1, .own (some handler)⟩)

end Class

/-- `_resolve_state_class`; `fails` is whether `get_type_hints` of the class raises. -/
def resolveStateClass (own : Option ( Annotation F)) (fails : Bool) (bases : List (Class F M)) :
    Option (StateClass F) :=
  match own with
  | some (.type target) => target
  | own =>
    if fails then none
    else (own.or (bases.findSome? fun base => base.body.annotation)).bind Annotation.target

def existingCommandNames (body : Body F M) (bases : List (Class F M)) : List String :=
  (body.attributes.filterMap Prod.snd ++
    bases.flatMap fun base => base.attributes.filterMap fun e => e.2.event?).map EventHandler.name

def stampAutoSetters (existing : List String) (state : StateClass F)
    (attributes : List (String × Attr F M)) : List (String × Attr F M) :=
  state.fields.foldl (fun attributes field =>
      if setName field.1 ∈ existing then attributes
      else Dict.set attributes (setName field.1) (.setter field.1 field.2))
    attributes

/-- The walk of `ModelContract.build`: the first claim of a name binds it, and a later one has to
come from a method of the same name. -/
def bindCommands : List (String × Entry F M) → List (String × Entry F M) →
    Except String (List (String × Entry F M))
  | commands, [] => .ok commands
  | commands, (name, entry) :: claims =>
    match commands.lookup name with
    | some first =>
      if first.attrName ≠ entry.attrName then .error s!"duplicate command name '{name}'"
      else bindCommands commands claims
    | none => bindCommands (commands ++ [(name, entry)]) claims

/-- `getattr(cls, "__app_state__")`, over the classes of the `__mro__`. -/
def appStateOf (classes : List (Class F M)) : Option (StateClass F) :=
  classes.findSome? Class.appState

def stateFieldNames (classes : List (Class F M)) : List String :=
  (appStateOf classes).elim [] StateClass.names

/-- `__init_subclass__` of `ReactorApp`, of a class with the given bases. -/
def initSubclass (place : ℕ) (body : Body F M) (fails : Bool) (mro : List ℕ)
    (bases : List (Class F M)) : Class F M :=
  let written := body.attributes.map fun e => (e.1, Attr.own e.2)
  let state := resolveStateClass body.annotation fails bases
  let defined : Class F M :=
    { place, body, mro, appState := state, contract := none
      attributes := match state with
        | some state => stampAutoSetters (existingCommandNames body bases) state written
        | none => written }
  { defined with
    contract := some (bindCommands []
      ((defined :: bases).flatMap fun c => c.claims (stateFieldNames (defined :: bases)))) }

inductive Statement (F M : Type) where
  | mixin (body : Body F M) (mro : List ℕ)
  | app (body : Body F M) (fails : Bool) (mro : List ℕ)

/-- The classes at the given places, which a class can have for bases: they are defined, none of
them was refused, and the bases of each are among them. -/
def basesAt (classes : List (Class F M)) (mro : List ℕ) : Option (List (Class F M)) := do
  let bases ← mro.mapM fun place => classes[place]?
  if bases.all fun base => base.mro.all (fun place => mro.contains place) &&
      !(base.contract matches some (.error _)) then
    some bases
  else none

def make (classes : List (Class F M)) : Statement F M → Option (Class F M)
  | .mixin body mro => (basesAt classes mro).map fun _ =>
    { place := classes.length, body, mro, appState := none, contract := none
      attributes := body.attributes.map fun e => (e.1, Attr.own e.2) }
  | .app body fails mro => (basesAt classes mro).map fun bases =>
    initSubclass classes.length body fails mro bases

/-- The classes of a hierarchy, in the order in which they are defined. -/
def hierarchy : TransitionSystem (List (Class F M)) (Statement F M) where
  init := []
  step classes statement := (make classes statement).map fun c => classes ++ [c]

end ReactorRuntime.AppContract
