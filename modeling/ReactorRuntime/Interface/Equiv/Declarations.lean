import ReactorRuntime.Interface.Declarations
import ReactorRuntime.Core.Equiv.Fields
import ReactorRuntime.Lists.Pointwise

/-!
# Records against dataclasses, over a hierarchy

A family of declarations is `Lawful` where what it records of a name can be told name by name: from
the closest base for an inherited name, and from its own annotation otherwise.  A new class then
agrees with its dataclass if and only if the dataclass reads back the defaults in its body, and no
name it inherits comes back that the closest base has as a `ClassVar` (`build_agrees`).

The removal of a field does come back: the class below the one that removes it has the field in its
record again, from the base above, and not in its dataclass.
-/

namespace ReactorRuntime.Declarations

open ReactorRuntime.Core
open ReactorRuntime.Interface (TypeSpec)

variable {Record Entry V Info : Type} {py : Objects V} {family : Family Record Entry V Info}

/-! ### The loop over the annotations -/

section Loop

variable {attributes : Table (Attribute V Info)} {annotations : List (String × Annotation)}
  {declarations : List (String × Declaration Entry V Info)}

theorem map_fst_declareAll (h : declareAll family attributes annotations = some declarations) :
    declarations.map Prod.fst = annotations.map Prod.fst := by
  induction annotations generalizing declarations with
  | nil =>
    cases h
    rfl
  | cons hint annotations ih =>
    obtain ⟨name, hint⟩ := hint
    obtain ⟨declaration, -, h⟩ := Option.bind_eq_some_iff.mp h
    obtain ⟨rest, hrest, h⟩ := Option.bind_eq_some_iff.mp h
    cases h
    rw [List.map_cons, List.map_cons, ih hrest]

theorem mem_declareAll (h : declareAll family attributes annotations = some declarations)
    {name : String} {declaration : Declaration Entry V Info}
    (hmem : (name, declaration) ∈ declarations) : ∃ hint, (name, hint) ∈ annotations ∧
      family.declare name hint (attributes.lookup name) = some declaration := by
  induction annotations generalizing declarations with
  | nil =>
    cases h
    cases hmem
  | cons hint annotations ih =>
    obtain ⟨first, hint⟩ := hint
    obtain ⟨made, hmade, h⟩ := Option.bind_eq_some_iff.mp h
    obtain ⟨rest, hrest, h⟩ := Option.bind_eq_some_iff.mp h
    cases h
    rcases List.mem_cons.mp hmem with heq | hmem
    · obtain ⟨rfl, rfl⟩ := Prod.mk.inj heq
      exact ⟨hint, List.mem_cons_self, hmade⟩
    · obtain ⟨found, hfound, hdeclared⟩ := ih hrest hmem
      exact ⟨found, List.mem_cons_of_mem _ hfound, hdeclared⟩

theorem exists_declaration (h : declareAll family attributes annotations = some declarations)
    {name : String} {hint : Annotation} (hmem : (name, hint) ∈ annotations) :
    ∃ declaration, (name, declaration) ∈ declarations ∧
      family.declare name hint (attributes.lookup name) = some declaration := by
  induction annotations generalizing declarations with
  | nil => cases hmem
  | cons first annotations ih =>
    obtain ⟨first, other⟩ := first
    obtain ⟨made, hmade, h⟩ := Option.bind_eq_some_iff.mp h
    obtain ⟨rest, hrest, h⟩ := Option.bind_eq_some_iff.mp h
    cases h
    rcases List.mem_cons.mp hmem with heq | hmem
    · obtain ⟨rfl, rfl⟩ := Prod.mk.inj heq
      exact ⟨made, List.mem_cons_self, hmade⟩
    · obtain ⟨found, hfound, hdeclared⟩ := ih hrest hmem
      exact ⟨found, List.mem_cons_of_mem _ hfound, hdeclared⟩

theorem lookup_map_snd {α β : Type} (f : α → β) (l : List (String × α)) (name : String) :
    (l.map fun d => (d.1, f d.2)).lookup name = (l.lookup name).map f := by
  induction l with
  | nil => rfl
  | cons d l ih =>
    obtain ⟨first, value⟩ := d
    rw [List.map_cons, List.lookup_cons, List.lookup_cons, ih]
    cases name == first <;> rfl

theorem lookup_eq_some_iff_mem {α : Type} {l : List (String × α)} (h : (l.map Prod.fst).Nodup)
    {name : String} {value : α} : l.lookup name = some value ↔ (name, value) ∈ l := by
  induction l with
  | nil => exact iff_of_false (by rintro ⟨⟩) List.not_mem_nil
  | cons d l ih =>
    obtain ⟨first, other⟩ := d
    rw [List.map_cons, List.nodup_cons] at h
    rw [List.mem_cons, List.lookup_cons]
    by_cases hname : name = first
    · subst hname
      have hnot : (name, value) ∉ l := fun hmem => h.1 (List.mem_map.mpr ⟨_, hmem, rfl⟩)
      simp [hnot, eq_comm]
    · rw [beq_eq_false_iff_ne.mpr hname, ih h.2]
      simp [hname]

theorem lookup_setDefault (hnodup : (declarations.map Prod.fst).Nodup) {name : String}
    {entry : Entry} {value : Attribute V Info}
    (h : declarations.lookup name = some (.defaulted entry value)) :
    (declarations.foldl setDefault attributes).lookup name = some value := by
  have hloop := get_foldl (fun (attributes : Table (Attribute V Info)) name =>
      attributes.lookup name) setDefault
    (fun _ declaration unset => (declaration : Declaration Entry V Info).value?.or unset)
    ?_ ?_ hnodup attributes name
  · rw [h] at hloop
    exact hloop
  · intro attributes declaration _
    obtain ⟨first, declaration⟩ := declaration
    rcases declaration with - | - | ⟨entry, value⟩
    · rfl
    · rfl
    · exact AList.lookup_insert attributes
  · intro attributes declaration _ name hname
    obtain ⟨first, declaration⟩ := declaration
    rcases declaration with - | - | ⟨entry, value⟩
    · rfl
    · rfl
    · exact AList.lookup_insert_ne hname

end Loop

/-! ### A family whose records can be told name by name -/

def Declaration.field (py : Objects V) :
    Declaration Entry V Info → DataclassField V Info
  | .classVar => .classVar
  | .required _ => .field none
  | .defaulted _ value => .field (readDefault py (some value))

/-- What a family records of a name (`view`), how a field of the record and the default of the
constructor fit, and the bodies whose defaults the dataclass reads back. -/
structure Lawful (py : Objects V) (family : Family Record Entry V Info)
    (view : Record → String → Option Entry) (fits : Entry → Option (Attribute V Info) → Prop)
    (readsBack : String → Annotation → Option (Attribute V Info) → Prop) : Prop where
  inherit (records : List Record) (name : String) :
    view (family.inherit records) name = records.findSome? fun record => view record name
  apply_self {name : String} {hint : Annotation} {raw : Option (Attribute V Info)}
    {declaration : Declaration Entry V Info}
    (h : family.declare name hint raw = some declaration) (record : Record) :
    view (family.apply record name declaration) name = declaration.recorded
  apply_other {name name' : String} (h : name' ≠ name) (record : Record)
    (declaration : Declaration Entry V Info) :
    view (family.apply record name declaration) name' = view record name'
  declared {name : String} {hint : Annotation} {raw : Option (Attribute V Info)}
    {declaration : Declaration Entry V Info}
    (h : family.declare name hint raw = some declaration) :
    Agree fits declaration.recorded (some (declaration.field py)) ↔ readsBack name hint raw

section Lawful

variable {view : Record → String → Option Entry} {fits : Entry → Option (Attribute V Info) → Prop}
  {readsBack : String → Annotation → Option (Attribute V Info) → Prop}
  {body : ClassBody V Info} {mro : List (Class Record V Info)} {cls : Class Record V Info}

/-- The record of a class and the fields of its dataclass agree, name by name. -/
def Agrees (view : Record → String → Option Entry)
    (fits : Entry → Option (Attribute V Info) → Prop) (cls : Class Record V Info) : Prop :=
  ∀ name, Agree fits (view cls.record name) (cls.fields.lookup name)

/-- No name is inherited that the closest base has as a `ClassVar` and another base as a field. -/
def KeepsRemovals (body : ClassBody V Info) (mro : List (Class Record V Info)) : Prop :=
  ∀ name, body.annotations.lookup name = none →
    (mro.findSome? fun base => base.fields.lookup name) = some .classVar →
      ∀ base ∈ mro, ∀ default, base.fields.lookup name ≠ some (.field default)

def ReadsBack (readsBack : String → Annotation → Option (Attribute V Info) → Prop)
    (body : ClassBody V Info) : Prop :=
  ∀ name hint, (name, hint) ∈ body.annotations →
    readsBack name hint (body.attributes.lookup name)

theorem build_eq_some (hlawful : Lawful py family view fits readsBack)
    (h : build py family body mro = some cls) : ∃ declarations,
      declareAll family body.attributes body.annotations = some declarations ∧
      (∀ name, view cls.record name = ((declarations.lookup name).map Declaration.recorded).getD
        (mro.findSome? fun base => view base.record name)) ∧
      ∀ name, cls.fields.lookup name =
        ((declarations.lookup name).map fun d => some (d.field py)).getD
          (mro.findSome? fun base => base.fields.lookup name) := by
  obtain ⟨declarations, hdeclared, h⟩ := Option.bind_eq_some_iff.mp h
  cases h
  have hnodup : (declarations.map Prod.fst).Nodup := by
    rw [map_fst_declareAll hdeclared]
    exact body.nodup
  refine ⟨declarations, hdeclared, fun name => ?_, fun name => ?_⟩
  · have hloop := get_foldl view (fun record d => family.apply record d.1 d.2)
      (fun _ d _ => (d : Declaration Entry V Info).recorded) ?_ ?_ hnodup
      (family.inherit (mro.map Class.record)) name
    · rw [hlawful.inherit, List.findSome?_map] at hloop
      refine hloop.trans ?_
      cases declarations.lookup name <;> rfl
    · intro record d hd
      obtain ⟨hint, -, hdeclare⟩ := mem_declareAll hdeclared hd
      exact hlawful.apply_self hdeclare record
    · intro record d _ name hname
      exact hlawful.apply_other hname record d.2
  · have hkeys : ((declarations.map fun d => (d.1, d.2.isClassVar)).map Prod.fst).Nodup := by
      rw [List.map_map]
      exact hnodup
    have hrequired (name : String) (d : Declaration Entry V Info)
        (hd : declarations.lookup name = some d) :
        name ∈ (declarations.filter fun d => d.2.isRequired).map Prod.fst ↔
          d.isRequired = true := by
      constructor
      · intro hmem
        obtain ⟨⟨first, d'⟩, hd', rfl⟩ := List.mem_map.mp hmem
        obtain ⟨hmem, hrequired⟩ := List.mem_filter.mp hd'
        rw [(lookup_eq_some_iff_mem hnodup).mpr hmem] at hd
        cases hd
        exact hrequired
      · intro hrequired
        have hmem := (lookup_eq_some_iff_mem hnodup).mp hd
        exact List.mem_map.mpr ⟨(name, d), List.mem_filter.mpr ⟨hmem, hrequired⟩, rfl⟩
    refine (lookup_applyDataclass hkeys name).trans ?_
    rw [lookup_map_snd, List.findSome?_map]
    cases hd : declarations.lookup name with
    | none => rfl
    | some d =>
      rcases d with - | entry | ⟨entry, value⟩
      · rfl
      · have hmem := (hrequired name _ hd).mpr rfl
        simp only [Option.map_some, Option.getD_some, Declaration.isClassVar]
        rw [if_neg Bool.false_ne_true, if_pos hmem]
        rfl
      · have hnot : name ∉ (declarations.filter fun d => d.2.isRequired).map Prod.fst := by
          intro hmem
          exact Bool.false_ne_true ((hrequired name _ hd).mp hmem)
        simp only [Option.map_some, Option.getD_some, Declaration.isClassVar]
        rw [if_neg Bool.false_ne_true, if_neg hnot,
          getattr_of_lookup _ (lookup_setDefault hnodup hd)]
        rfl

theorem build_agrees (hlawful : Lawful py family view fits readsBack)
    (h : build py family body mro = some cls) (hbases : ∀ base ∈ mro, Agrees view fits base) :
    Agrees view fits cls ↔ ReadsBack readsBack body ∧ KeepsRemovals body mro := by
  obtain ⟨declarations, hdeclared, hrecord, hfields⟩ := build_eq_some hlawful h
  have hnodup : (declarations.map Prod.fst).Nodup := by
    rw [map_fst_declareAll hdeclared]
    exact body.nodup
  -- a name of the body
  have hown (name : String) (hint : Annotation)
      (hmem : (name, hint) ∈ body.annotations) :
      Agree fits (view cls.record name) (cls.fields.lookup name) ↔
        readsBack name hint (body.attributes.lookup name) := by
    obtain ⟨declaration, hmem', hdeclare⟩ := exists_declaration hdeclared hmem
    rw [hrecord, hfields, (lookup_eq_some_iff_mem hnodup).mpr hmem']
    exact hlawful.declared hdeclare
  -- a name that is inherited
  have hinherited (name : String) (hnone : body.annotations.lookup name = none) :
      Agree fits (view cls.record name) (cls.fields.lookup name) ↔
        ((mro.findSome? fun base => base.fields.lookup name) = some .classVar →
          ∀ base ∈ mro, ∀ default, base.fields.lookup name ≠ some (.field default)) := by
    have hundeclared : declarations.lookup name = none := by
      rw [List.lookup_eq_none_iff]
      intro d hd
      rw [bne_iff_ne]
      rintro rfl
      obtain ⟨hint, hmem, -⟩ := mem_declareAll hdeclared hd
      rw [(lookup_eq_some_iff_mem body.nodup).mpr hmem] at hnone
      cases hnone
    rw [hrecord, hfields, hundeclared]
    have hpairs : ∀ pair ∈ mro.map fun base => (view base.record name, base.fields.lookup name),
        Agree fits pair.1 pair.2 := by
      intro pair hpair
      obtain ⟨base, hbase, rfl⟩ := List.mem_map.mp hpair
      exact hbases base hbase name
    have hmerge := agree_findSome? _ hpairs
    rw [List.findSome?_map, List.findSome?_map] at hmerge
    refine hmerge.trans (imp_congr_right fun _ => ?_)
    rw [List.forall_mem_map]
    refine forall₂_congr fun base hbase => ?_
    have hbase := hbases base hbase name
    revert hbase
    rcases view base.record name with - | entry <;>
      rcases base.fields.lookup name with - | (default | -) <;> simp [Agree]
  constructor
  · intro hagrees
    exact ⟨fun name hint hmem => (hown name hint hmem).mp (hagrees name),
      fun name hnone => (hinherited name hnone).mp (hagrees name)⟩
  · rintro ⟨hreads, hkeeps⟩ name
    cases hlookup : body.annotations.lookup name with
    | none => exact (hinherited name hlookup).mpr (hkeeps name hlookup)
    | some hint =>
      have hmem := (lookup_eq_some_iff_mem body.nodup).mp hlookup
      exact (hown name hint hmem).mpr (hreads name hint hmem)

/-! ### Hierarchies -/

/-- The condition on a class statement: the defaults in its body are read back by the dataclass, and
no removed field comes back. -/
def Keeps (readsBack : String → Annotation → Option (Attribute V Info) → Prop)
    (classes : List (Class Record V Info)) : Statement V Info → Prop
  | .mixin _ => True
  | .subclass body places => ReadsBack readsBack body ∧
      ∀ mro, classesAt classes places = some mro → KeepsRemovals body mro

theorem mem_of_classesAt {classes mro : List (Class Record V Info)} {places : List ℕ}
    (h : classesAt classes places = some mro) {base : Class Record V Info} (hbase : base ∈ mro) :
    base ∈ classes := by
  obtain ⟨place, -, hplace⟩ := Lists.exists_of_mem_mapM h hbase
  exact List.mem_of_getElem? hplace

theorem mem_of_define {classes classes' : List (Class Record V Info)}
    {statement : Statement V Info} (h : define py family classes statement = some classes')
    {cls : Class Record V Info} (hcls : cls ∈ classes) : cls ∈ classes' := by
  rcases statement with attributes | ⟨body, places⟩
  · cases h
    exact List.mem_append_left _ hcls
  · obtain ⟨mro, -, h⟩ := Option.bind_eq_some_iff.mp h
    obtain ⟨built, -, h⟩ := Option.bind_eq_some_iff.mp h
    cases h
    exact List.mem_append_left _ hcls

theorem define_agrees (hlawful : Lawful py family view fits readsBack)
    {classes classes' : List (Class Record V Info)} {statement : Statement V Info}
    (hclasses : ∀ cls ∈ classes, Agrees view fits cls)
    (h : define py family classes statement = some classes') :
    (∀ cls ∈ classes', Agrees view fits cls) ↔ Keeps readsBack classes statement := by
  rcases statement with attributes | ⟨body, places⟩
  · cases h
    refine iff_of_true ?_ trivial
    rw [List.forall_mem_append, List.forall_mem_singleton]
    refine ⟨hclasses, fun name => ?_⟩
    rw [hlawful.inherit]
    exact trivial
  · obtain ⟨mro, hmro, h⟩ := Option.bind_eq_some_iff.mp h
    obtain ⟨cls, hbuild, h⟩ := Option.bind_eq_some_iff.mp h
    cases h
    have hbuilt := build_agrees hlawful hbuild
      fun base hbase => hclasses base (mem_of_classesAt hmro hbase)
    rw [List.forall_mem_append, List.forall_mem_singleton, hbuilt]
    constructor
    · rintro ⟨-, hreads, hkeeps⟩
      refine ⟨hreads, fun mro' hmro' => ?_⟩
      obtain rfl := Option.some.inj (hmro.symm.trans hmro')
      exact hkeeps
    · rintro ⟨hreads, hkeeps⟩
      exact ⟨hclasses, hreads, hkeeps mro hmro⟩

theorem hierarchy_agrees (hlawful : Lawful py family view fits readsBack)
    {statements : List (Statement V Info)} {classes : List (Class Record V Info)}
    (hrun : (hierarchy py family).run statements = some classes) :
    (∀ cls ∈ classes, Agrees view fits cls) ↔
      (hierarchy py family).AllSteps (Keeps readsBack) statements := by
  refine TransitionSystem.run_induction (T := hierarchy py family)
    (motive := fun statements classes => (∀ cls ∈ classes, Agrees view fits cls) ↔
      (hierarchy py family).AllSteps (Keeps readsBack) statements) ?_ ?_ statements classes hrun
  · exact iff_of_true (fun cls hcls => absurd hcls List.not_mem_nil) trivial
  · intro statements classes statement classes' hrun ih hstep
    unfold TransitionSystem.AllSteps at ih ⊢
    rw [TransitionSystem.allStepsFrom_concat, ← ih]
    constructor
    · intro hagrees
      -- the classes before the statement are among those after it
      have hclasses : ∀ cls ∈ classes, Agrees view fits cls := fun cls hcls =>
        hagrees cls (mem_of_define hstep hcls)
      refine ⟨hclasses, fun before hbefore => ?_⟩
      obtain rfl := Option.some.inj (hrun.symm.trans hbefore)
      exact (define_agrees hlawful hclasses hstep).mp hagrees
    · rintro ⟨hclasses, hkeeps⟩
      exact (define_agrees hlawful hclasses hstep).mpr (hkeeps classes hrun)

end Lawful

/-- The default that a class body declares under a name. -/
def declaredDefault (default : Info → Option V) : Option (Attribute V Info) → Option V
  | some (.object value) => some value
  | some (.info info) => default info
  | none => none

/-! ### Commands and messages -/

section Typed

variable (kind : InfoKind V Info)

/-- The default of the record is the constructor's. -/
def fitsTyped (field : TypedField Info) (default : Option (Attribute V Info)) : Prop :=
  default = (kind.default field.info).map .object

/-- The dataclass reads back the default that is declared. -/
def readsBackTyped (py : Objects V) (_ : String) (hint : Annotation)
    (raw : Option (Attribute V Info)) : Prop :=
  match hint with
  | .classVar => True
  | .type _ => ∀ value, declaredDefault kind.default raw = some value →
      py.default value = some value

theorem readDefault_eq_iff (value : V) :
    readDefault py (some (.object value)) = some (.object value : Attribute V Info) ↔
      py.default value = some value := by
  show (py.default value).map Attribute.object = some (Attribute.object value) ↔ _
  rw [Option.map_eq_some_iff]
  constructor
  · rintro ⟨read, hread, heq⟩
    obtain rfl := Attribute.object.inj heq
    exact hread
  · intro hread
    exact ⟨value, hread, rfl⟩

theorem declared_typed [DecidableEq V] {kind : InfoKind V Info} {fits : TypeSpec → V → Bool}
    {name : String} {hint : Annotation} {raw : Option (Attribute V Info)}
    {declaration : Declaration (TypedField Info) V Info}
    (h : declareTyped py kind fits hint raw = some declaration) :
    Agree (fitsTyped kind) declaration.recorded (some (declaration.field py)) ↔
      readsBackTyped kind py name hint raw := by
  -- what is left once a default is known
  have hdefault (spec : TypeSpec) (info : Info) (value : V)
      (hinfo : kind.default info = some value) :
      fitsTyped kind ⟨spec, info⟩ (readDefault py (some (.object value))) ↔
        ∀ value', some value = some value' → py.default value' = some value' := by
    unfold fitsTyped
    rw [hinfo, Option.map_some, readDefault_eq_iff]
    constructor
    · rintro hread value' heq
      cases heq
      exact hread
    · intro hall
      exact hall value rfl
  unfold declareTyped at h
  rcases hint with - | (- | spec)
  · cases h
    exact Iff.rfl
  · cases h
  · rcases raw with - | (value | info)
    · cases h
      have hplain := kind.default_plain none
      refine iff_of_true ?_ (by rintro value ⟨⟩)
      show none = (kind.default (kind.plain none)).map Attribute.object
      rw [hplain]
      rfl
    · dsimp only at h
      split_ifs at h
      cases h
      exact hdefault spec _ value (kind.default_plain (some value))
    · dsimp only at h
      cases hinfo : kind.default info with
      | none =>
        rw [hinfo] at h
        cases h
        refine iff_of_true ?_ ?_
        · show none = (kind.default info).map Attribute.object
          rw [hinfo]
          rfl
        · intro value hvalue
          rw [declaredDefault, hinfo] at hvalue
          cases hvalue
      | some value =>
        rw [hinfo] at h
        dsimp only at h
        split_ifs at h
        cases h
        refine (hdefault spec info value hinfo).trans ?_
        show _ ↔ ∀ value, kind.default info = some value → py.default value = some value
        rw [hinfo]

theorem lawful_typed [DecidableEq V] (fits : TypeSpec → V → Bool) :
    Lawful py (typedFamily py kind fits) (fun record name => record.lookup name) (fitsTyped kind)
      (readsBackTyped kind py) where
  inherit records name := lookup_inheritedRecord records name
  apply_self {name} _ _ declaration _ record := by
    show (applyTyped record name declaration).lookup name = _
    unfold applyTyped
    cases declaration.recorded with
    | none => exact AList.lookup_erase name record
    | some entry => exact AList.lookup_insert record
  apply_other {name name'} h record declaration := by
    show (applyTyped record name declaration).lookup name' = _
    unfold applyTyped
    cases declaration.recorded with
    | none => exact AList.lookup_erase_ne h
    | some entry => exact AList.lookup_insert_ne h
  declared h := declared_typed h

/-- The record of a command or a message agrees with the dataclass: the fields, and of each field
whether it is required and its default. -/
structure TypedAgrees (cls : Class (Table (TypedField Info)) V Info) : Prop where
  names : ∀ name, name ∈ cls.record ↔ ∃ default, cls.fields.lookup name = some (.field default)
  defaults : ∀ name field default, cls.record.lookup name = some field →
    cls.fields.lookup name = some (.field default) →
      default = (kind.default field.info).map .object

theorem typedAgrees_iff (cls : Class (Table (TypedField Info)) V Info) : TypedAgrees kind cls ↔
    Agrees (fun record name => record.lookup name) (fitsTyped kind) cls := by
  unfold Agrees
  simp only [agree_iff, AList.lookup_isSome]
  constructor
  · rintro ⟨hnames, hdefaults⟩ name
    exact ⟨hnames name, hdefaults name⟩
  · intro hagrees
    exact ⟨fun name => (hagrees name).1, fun name => (hagrees name).2⟩

end Typed

/-! ### States -/

section InputState

def stateView (record : StateRecord V) (name : String) : Option (StateField V) :=
  if isPrivate name then (if name ∈ record.privateFields then some .privateField else none)
  else (record.publicFields.lookup name).map .publicField

/-- The constructor's default is the one of the record, and `None` for an upload; a private field
has some default. -/
def fitsState (py : Objects V) : StateField V → Option (Attribute V (FieldInfo V)) → Prop
  | .publicField field, default =>
    default = if field.upload then some (.object py.none) else field.info.default.map .object
  | .privateField, default => default ≠ none

/-- The dataclass reads back the default that is declared; of a private field it reads some default,
and an upload starts empty in any case. -/
def readsBackState (py : Objects V) (name : String) (hint : Annotation)
    (raw : Option (Attribute V (FieldInfo V))) : Prop :=
  match hint with
  | .classVar => True
  | .type spec =>
    if isPrivate name then ∀ value, raw = some (.object value) → py.default value ≠ none
    else if spec.any isUpload then True
    else ∀ value, declaredDefault FieldInfo.default raw = some value → py.default value = some value

/-- The public names and the private ones are told apart by their first character. -/
structure WellNamed (record : StateRecord V) : Prop where
  publicFields : ∀ name ∈ record.publicFields, isPrivate name = false
  privateFields : ∀ name ∈ record.privateFields, isPrivate name = true

/-- The uploads are the public fields whose declaration is an upload. -/
def UploadsFollow (record : StateRecord V) : Prop :=
  ∀ name, name ∈ record.uploadFields ↔
    ∃ field, record.publicFields.lookup name = some field ∧ field.upload = true

theorem mem_privateFields_inheritState (records : List (StateRecord V)) (name : String) :
    name ∈ (inheritState records).privateFields ↔
      ∃ record ∈ records, name ∈ record.privateFields := by
  unfold inheritState
  dsimp only
  rw [List.foldl_reverse]
  induction records with
  | nil => simp
  | cons record records ih =>
    rw [List.foldr_cons, Finset.mem_union, ih, List.exists_mem_cons_iff, or_comm]

theorem lookup_publicFields_inheritState (records : List (StateRecord V)) (name : String) :
    (inheritState records).publicFields.lookup name =
      records.findSome? fun record => record.publicFields.lookup name := by
  unfold inheritState
  rw [lookup_inheritedRecord, List.findSome?_map]
  rfl

theorem UploadsFollow.inherit {records : List (StateRecord V)}
    (h : ∀ record ∈ records, UploadsFollow record) : UploadsFollow (inheritState records) := by
  intro name
  rw [lookup_publicFields_inheritState]
  unfold inheritState
  dsimp only
  rw [List.foldl_reverse]
  induction records with
  | nil => simp
  | cons record records ih =>
    have hfirst := h record List.mem_cons_self name
    rw [List.foldr_cons, Finset.mem_union, Finset.mem_filter, Finset.mem_filter,
      List.findSome?_cons, ih fun record hmem => h record (List.mem_cons_of_mem _ hmem), hfirst]
    cases hlookup : record.publicFields.lookup name with
    | none =>
      have hnot : name ∉ record.publicFields := AList.lookup_eq_none.mp hlookup
      simp [hnot]
    | some field =>
      have hmem : name ∈ record.publicFields := Lists.mem_of_lookup hlookup
      simp [hmem]

theorem WellNamed.inherit {records : List (StateRecord V)}
    (h : ∀ record ∈ records, WellNamed record) : WellNamed (inheritState records) := by
  constructor
  · intro name hname
    obtain ⟨field, hfield⟩ := Option.isSome_iff_exists.mp (AList.lookup_isSome.mpr hname)
    rw [lookup_publicFields_inheritState] at hfield
    obtain ⟨record, hrecord, hfield⟩ := List.exists_of_findSome?_eq_some hfield
    exact (h record hrecord).publicFields name (Lists.mem_of_lookup hfield)
  · intro name hname
    obtain ⟨record, hrecord, hname⟩ := (mem_privateFields_inheritState records name).mp hname
    exact (h record hrecord).privateFields name hname

theorem stateView_inheritState (records : List (StateRecord V)) (name : String) :
    stateView (inheritState records) name =
      records.findSome? fun record => stateView record name := by
  unfold stateView
  by_cases hprivate : isPrivate name = true
  · simp only [if_pos hprivate, mem_privateFields_inheritState]
    induction records with
    | nil => simp
    | cons record records ih =>
      rw [List.findSome?_cons, ← ih]
      by_cases hmem : name ∈ record.privateFields
      · simp [hmem]
      · simp [hmem]
  · simp only [if_neg hprivate, lookup_publicFields_inheritState]
    induction records with
    | nil => rfl
    | cons record records ih =>
      rw [List.findSome?_cons, List.findSome?_cons, ← ih]
      cases record.publicFields.lookup name <;> rfl

/-- What one turn of the loop can declare. -/
inductive DeclaredState (py : Objects V) (name : String)
    (raw : Option (Attribute V (FieldInfo V))) :
    Annotation → Declaration (StateField V) V (FieldInfo V) → Prop where
  | classVar : DeclaredState py name raw .classVar .classVar
  | privateField {spec : Option TypeSpec} {value : Attribute V (FieldInfo V)}
    (hprivate : isPrivate name = true) (hraw : raw = some value) :
    DeclaredState py name raw (.type spec) (.defaulted .privateField value)
  | upload {spec : Option TypeSpec} (hprivate : isPrivate name = false)
    (hupload : spec.any isUpload = true) (info : FieldInfo V) :
    DeclaredState py name raw (.type spec)
      (.defaulted (.publicField ⟨info, true⟩) (.object py.none))
  | required {spec : Option TypeSpec} (hprivate : isPrivate name = false)
    (hupload : spec.any isUpload = false) {info : FieldInfo V} (hinfo : info.default = none)
    (hraw : declaredDefault FieldInfo.default raw = none) :
    DeclaredState py name raw (.type spec) (.required (.publicField ⟨info, false⟩))
  | defaulted {spec : Option TypeSpec} (hprivate : isPrivate name = false)
    (hupload : spec.any isUpload = false) {info : FieldInfo V} {value : V}
    (hinfo : info.default = some value)
    (hraw : declaredDefault FieldInfo.default raw = some value) :
    DeclaredState py name raw (.type spec)
      (.defaulted (.publicField ⟨info, false⟩) (.object value))

variable {name : String} {hint : Annotation} {raw : Option (Attribute V (FieldInfo V))}
  {declaration : Declaration (StateField V) V (FieldInfo V)}

theorem declaredState_of_eq_some [DecidableEq V]
    (h : declareState py name hint raw = some declaration) :
    DeclaredState py name raw hint declaration := by
  unfold declareState at h
  rcases hint with - | spec
  · cases h
    exact .classVar
  dsimp only at h
  by_cases hprivate : isPrivate name = true
  · rw [if_pos hprivate] at h
    obtain ⟨value, hraw, rfl⟩ := Option.map_eq_some_iff.mp h
    exact .privateField hprivate hraw
  rw [if_neg hprivate] at h
  rw [Bool.not_eq_true] at hprivate
  by_cases hupload : spec.any isUpload = true
  · rw [if_pos hupload] at h
    rcases raw with - | (value | info)
    · cases h
      exact .upload hprivate hupload _
    · cases h
      exact .upload hprivate hupload _
    · cases h
      exact .upload hprivate hupload info
  rw [if_neg hupload] at h
  rw [Bool.not_eq_true] at hupload
  rcases raw with - | (value | info)
  · cases h
    exact .required hprivate hupload rfl rfl
  · dsimp only at h
    split_ifs at h
    cases h
    exact .defaulted hprivate hupload rfl rfl
  · dsimp only at h
    cases hinfo : info.default with
    | none =>
      rw [hinfo] at h
      cases h
      exact .required hprivate hupload hinfo hinfo
    | some value =>
      rw [hinfo] at h
      dsimp only at h
      split_ifs at h
      cases h
      exact .defaulted hprivate hupload hinfo hinfo

theorem DeclaredState.agree (h : DeclaredState py name raw hint declaration) :
    Agree (fitsState py) declaration.recorded (some (declaration.field py)) ↔
      readsBackState py name hint raw := by
  rcases h with - | ⟨hprivate, rfl⟩ | ⟨hprivate, hupload, info⟩ | ⟨hprivate, hupload, hinfo, hraw⟩ |
    ⟨hprivate, hupload, hinfo, hraw⟩
  · exact Iff.rfl
  · rename_i spec value
    show readDefault py (some value) ≠ none ↔ if isPrivate name then _ else _
    rw [if_pos hprivate]
    rcases value with value | info
    · have hnone : readDefault py (some (.object value : Attribute V (FieldInfo V))) = none ↔
          py.default value = none := Option.map_eq_none_iff
      rw [ne_eq, hnone]
      constructor
      · rintro hread value' heq
        obtain rfl := Attribute.object.inj (Option.some.inj heq)
        exact hread
      · intro hall
        exact hall value rfl
    · exact iff_of_true (by rintro ⟨⟩) (by rintro value ⟨⟩)
  · refine iff_of_true ?_ ?_
    · show (py.default py.none).map Attribute.object = some (.object py.none)
      rw [py.default_none]
      rfl
    · show if isPrivate name then _ else _
      rw [if_neg (by rw [hprivate]; exact Bool.false_ne_true), if_pos hupload]
      trivial
  · rename_i spec info
    refine iff_of_true ?_ ?_
    · show none = info.default.map Attribute.object
      rw [hinfo]
      rfl
    · show if isPrivate name then _ else _
      rw [if_neg (by rw [hprivate]; exact Bool.false_ne_true),
        if_neg (by rw [hupload]; exact Bool.false_ne_true), hraw]
      rintro value ⟨⟩
  · rename_i spec info value
    show readDefault py (some (.object value)) = info.default.map Attribute.object ↔
      if isPrivate name then _ else _
    rw [if_neg (by rw [hprivate]; exact Bool.false_ne_true),
      if_neg (by rw [hupload]; exact Bool.false_ne_true), hraw, hinfo, Option.map_some,
      readDefault_eq_iff]
    constructor
    · rintro hread value' heq
      cases heq
      exact hread
    · intro hall
      exact hall value rfl

theorem DeclaredState.view_apply (h : DeclaredState py name raw hint declaration)
    (record : StateRecord V) :
    stateView (applyState record name declaration) name = declaration.recorded := by
  unfold stateView
  rcases h with - | ⟨hprivate, rfl⟩ | ⟨hprivate, hupload, info⟩ | ⟨hprivate, hupload, hinfo, hraw⟩ |
    ⟨hprivate, hupload, hinfo, hraw⟩
  · split_ifs with hprivate hmem
    · exact absurd hmem (Finset.notMem_erase name record.privateFields)
    · rfl
    · show ((record.publicFields.erase name).lookup name).map _ = none
      rw [AList.lookup_erase]
      rfl
  · rw [if_pos hprivate]
    exact if_pos (Finset.mem_insert_self name record.privateFields)
  all_goals
    rw [if_neg (by rw [hprivate]; exact Bool.false_ne_true)]
    show ((record.publicFields.insert name _).lookup name).map _ = _
    rw [AList.lookup_insert]
    rfl

theorem stateView_applyState_of_ne {name' : String} (h : name' ≠ name) (record : StateRecord V)
    (declaration : Declaration (StateField V) V (FieldInfo V)) :
    stateView (applyState record name declaration) name' = stateView record name' := by
  have hpublic : (applyState record name declaration).publicFields.lookup name' =
      record.publicFields.lookup name' := by
    rcases declaration with - | (field | -) | ⟨field | -, value⟩
    · exact AList.lookup_erase_ne h
    · exact AList.lookup_insert_ne h
    · rfl
    · exact AList.lookup_insert_ne h
    · rfl
  have hprivate : name' ∈ (applyState record name declaration).privateFields ↔
      name' ∈ record.privateFields := by
    rcases declaration with - | (field | -) | ⟨field | -, value⟩
    · exact Finset.mem_erase.trans (and_iff_right h)
    · exact Iff.rfl
    · exact Finset.mem_insert.trans (or_iff_right h)
    · exact Iff.rfl
    · exact Finset.mem_insert.trans (or_iff_right h)
  unfold stateView
  rw [hpublic]
  simp only [hprivate]

theorem lawful_inputState [DecidableEq V] :
    Lawful py (inputState py) stateView (fitsState py) (readsBackState py) where
  inherit := stateView_inheritState
  apply_self h record := (declaredState_of_eq_some h).view_apply record
  apply_other h record declaration := stateView_applyState_of_ne h record declaration
  declared h := (declaredState_of_eq_some h).agree

structure InOrder (record : StateRecord V) : Prop where
  named : WellNamed record
  uploads : UploadsFollow record

theorem InOrder.inherit {records : List (StateRecord V)} (h : ∀ record ∈ records, InOrder record) :
    InOrder (inheritState records) :=
  ⟨.inherit fun record hrecord => (h record hrecord).named,
    .inherit fun record hrecord => (h record hrecord).uploads⟩

theorem UploadsFollow.erase {record record' : StateRecord V} (h : UploadsFollow record)
    (huploads : record'.uploadFields = record.uploadFields.erase name)
    (hname : record'.publicFields.lookup name = none)
    (hother : ∀ name', name' ≠ name →
      record'.publicFields.lookup name' = record.publicFields.lookup name') :
    UploadsFollow record' := by
  intro name'
  rw [huploads, Finset.mem_erase, h name']
  by_cases heq : name' = name
  · subst heq
    rw [hname]
    exact iff_of_false (fun hmem => hmem.1 rfl) (by rintro ⟨field, ⟨⟩, -⟩)
  · rw [hother name' heq]
    exact and_iff_right heq

theorem InOrder.insert {record : StateRecord V} (h : InOrder record)
    (hprivate : isPrivate name = false) (field : PublicField V) : InOrder { record with
      publicFields := record.publicFields.insert name field
      uploadFields :=
        if field.upload then insert name record.uploadFields
        else record.uploadFields.erase name } := by
  refine ⟨⟨?_, h.named.privateFields⟩, fun name' => ?_⟩
  · intro name' hname
    rcases (AList.mem_insert _).mp hname with rfl | hname
    · exact hprivate
    · exact h.named.publicFields name' hname
  · show name' ∈ (if field.upload then _ else _) ↔ ∃ other,
      (record.publicFields.insert name field).lookup name' = some other ∧ other.upload = true
    rw [Lists.lookup_insert_if]
    by_cases heq : name' = name
    · subst heq
      rw [if_pos rfl]
      cases hupload : field.upload <;> simp [hupload]
    · rw [if_neg heq, ← h.uploads name']
      cases field.upload <;> simp [heq]

theorem DeclaredState.inOrder (h : DeclaredState py name raw hint declaration)
    {record : StateRecord V} (hrecord : InOrder record) :
    InOrder (applyState record name declaration) := by
  rcases h with - | ⟨hprivate, rfl⟩ | ⟨hprivate, hupload, info⟩ | ⟨hprivate, hupload, hinfo, hraw⟩ |
    ⟨hprivate, hupload, hinfo, hraw⟩
  · refine ⟨⟨fun name' hname => ?_, fun name' hname => ?_⟩, ?_⟩
    · exact hrecord.named.publicFields name' (AList.mem_erase.mp hname).2
    · exact hrecord.named.privateFields name' (Finset.mem_of_mem_erase hname)
    · exact hrecord.uploads.erase rfl (AList.lookup_erase name record.publicFields)
        fun name' hne => AList.lookup_erase_ne hne
  · refine ⟨⟨hrecord.named.publicFields, fun name' hname => ?_⟩, ?_⟩
    · rcases Finset.mem_insert.mp hname with rfl | hname
      · exact hprivate
      · exact hrecord.named.privateFields name' hname
    · refine hrecord.uploads.erase rfl ?_ fun _ _ => rfl
      rw [AList.lookup_eq_none]
      intro hmem
      have hpublic := hrecord.named.publicFields name hmem
      rw [hprivate] at hpublic
      cases hpublic
  · exact hrecord.insert hprivate ⟨info, true⟩
  · exact hrecord.insert hprivate _
  · exact hrecord.insert hprivate _

/-- The loop over the annotations. -/
theorem InOrder.foldl {record : StateRecord V} (h : InOrder record)
    {declarations : List (String × Declaration (StateField V) V (FieldInfo V))}
    (hall : ∀ d ∈ declarations, ∃ hint raw, DeclaredState py d.1 raw hint d.2) :
    InOrder (declarations.foldl (fun record d => applyState record d.1 d.2) record) := by
  induction declarations generalizing record with
  | nil => exact h
  | cons d declarations ih =>
    obtain ⟨hint, raw, hd⟩ := hall d List.mem_cons_self
    exact ih (hd.inOrder h) fun d hmem => hall d (List.mem_cons_of_mem _ hmem)

theorem inOrder_build [DecidableEq V] {body : ClassBody V (FieldInfo V)}
    {mro : List (Class (StateRecord V) V (FieldInfo V))}
    {cls : Class (StateRecord V) V (FieldInfo V)} (h : build py (inputState py) body mro = some cls)
    (hbases : ∀ base ∈ mro, InOrder base.record) : InOrder cls.record := by
  obtain ⟨declarations, hdeclared, h⟩ := Option.bind_eq_some_iff.mp h
  cases h
  have hall : ∀ d ∈ declarations, ∃ hint raw, DeclaredState py d.1 raw hint d.2 := by
    intro d hd
    obtain ⟨hint, -, hdeclare⟩ := mem_declareAll hdeclared hd
    exact ⟨hint, _, declaredState_of_eq_some hdeclare⟩
  have hinherited : InOrder (inheritState (mro.map Class.record)) := by
    refine InOrder.inherit fun record hrecord => ?_
    obtain ⟨base, hbase, rfl⟩ := List.mem_map.mp hrecord
    exact hbases base hbase
  exact hinherited.foldl hall

theorem isInvariant_inOrder [DecidableEq V] :
    (hierarchy py (inputState py)).IsInvariant fun classes =>
      ∀ cls ∈ classes, InOrder cls.record where
  init cls hcls := absurd hcls List.not_mem_nil
  step classes statement classes' hclasses h := by
    have hempty : InOrder (inheritState ([] : List (StateRecord V))) :=
      InOrder.inherit fun record hrecord => absurd hrecord List.not_mem_nil
    rcases statement with attributes | ⟨body, places⟩
    · cases h
      rw [List.forall_mem_append, List.forall_mem_singleton]
      exact ⟨hclasses, hempty⟩
    · obtain ⟨mro, hmro, h⟩ := Option.bind_eq_some_iff.mp h
      obtain ⟨cls, hbuild, h⟩ := Option.bind_eq_some_iff.mp h
      cases h
      rw [List.forall_mem_append, List.forall_mem_singleton]
      exact ⟨hclasses, inOrder_build hbuild fun base hbase =>
        hclasses base (mem_of_classesAt hmro hbase)⟩

/-- The records of a state agree with the dataclass: the fields, of each public field whether it is
required and its default, that a private field has a default, and the uploads. -/
structure StateAgrees (py : Objects V) (cls : Class (StateRecord V) V (FieldInfo V)) : Prop where
  names : ∀ name, (name ∈ cls.record.publicFields ∨ name ∈ cls.record.privateFields) ↔
    ∃ default, cls.fields.lookup name = some (.field default)
  defaults : ∀ name field default, cls.record.publicFields.lookup name = some field →
    cls.fields.lookup name = some (.field default) →
      default = if field.upload then some (.object py.none) else field.info.default.map .object
  privates : ∀ name ∈ cls.record.privateFields, cls.fields.lookup name ≠ some (.field none)
  uploads : ∀ name, name ∈ cls.record.uploadFields ↔
    ∃ field, cls.record.publicFields.lookup name = some field ∧ field.upload = true

theorem stateAgrees_iff {cls : Class (StateRecord V) V (FieldInfo V)} (h : InOrder cls.record) :
    StateAgrees py cls ↔ Agrees stateView (fitsState py) cls := by
  have hpublic (name : String) (hname : isPrivate name = false) :
      stateView cls.record name = (cls.record.publicFields.lookup name).map .publicField := by
    unfold stateView
    rw [if_neg (by rw [hname]; exact Bool.false_ne_true)]
  have hprivate (name : String) (hname : isPrivate name = true) :
      stateView cls.record name =
        if name ∈ cls.record.privateFields then some .privateField else none := by
    unfold stateView
    rw [if_pos hname]
  have hview (name : String) : (stateView cls.record name).isSome = true ↔
      name ∈ cls.record.publicFields ∨ name ∈ cls.record.privateFields := by
    cases hname : isPrivate name with
    | true =>
      have hnot : name ∉ cls.record.publicFields := by
        intro hmem
        have hmem := h.named.publicFields name hmem
        rw [hname] at hmem
        cases hmem
      rw [hprivate name hname]
      split_ifs with hmem <;> simp [hmem, hnot]
    | false =>
      have hnot : name ∉ cls.record.privateFields := by
        intro hmem
        have hmem := h.named.privateFields name hmem
        rw [hname] at hmem
        cases hmem
      rw [hpublic name hname, Option.isSome_map, AList.lookup_isSome]
      exact (or_iff_left hnot).symm
  unfold Agrees
  simp only [agree_iff, hview]
  constructor
  · rintro ⟨hnames, hdefaults, hprivates, -⟩ name
    refine ⟨hnames name, fun field default hfield hdefault => ?_⟩
    cases hname : isPrivate name with
    | true =>
      rw [hprivate name hname] at hfield
      split_ifs at hfield with hmem
      cases hfield
      rintro rfl
      exact hprivates name hmem hdefault
    | false =>
      rw [hpublic name hname] at hfield
      obtain ⟨field, hlookup, rfl⟩ := Option.map_eq_some_iff.mp hfield
      exact hdefaults name field default hlookup hdefault
  · intro hagrees
    refine ⟨fun name => (hagrees name).1, ?_, ?_, h.uploads⟩
    · intro name field default hfield hdefault
      have hname := h.named.publicFields name (Lists.mem_of_lookup hfield)
      refine (hagrees name).2 (.publicField field) default ?_ hdefault
      rw [hpublic name hname, hfield]
      rfl
    · intro name hmem hdefault
      have hname := h.named.privateFields name hmem
      refine (hagrees name).2 .privateField none ?_ hdefault rfl
      rw [hprivate name hname, if_pos hmem]

end InputState

/-! ### Declarations, records and dataclasses -/

/-- The record of a command agrees with the dataclass, and the uploads with the record. -/
structure CommandAgrees [DecidableEq V] (py : Objects V)
    (cls : Class (Table (CommandField V)) V (FieldInfo V)) : Prop where
  fields : TypedAgrees (inputFieldKind py) cls
  uploads : ∀ name, name ∈ commandUploads cls.record ↔
    ∃ field, cls.record.lookup name = some field ∧ isUpload field.spec = true

theorem mem_commandUploads (fields : Table (CommandField V)) (name : String) :
    name ∈ commandUploads fields ↔
      ∃ field, fields.lookup name = some field ∧ isUpload field.spec = true := by
  unfold commandUploads
  rw [Finset.mem_filter, List.mem_toFinset, Option.any_eq_true]
  refine and_iff_right_of_imp ?_
  rintro ⟨field, hfield, -⟩
  exact AList.mem_keys.mp (Lists.mem_of_lookup hfield)

def strings : Objects String where
  none := "None"
  missing := "MISSING"
  isField value := value = "field(default=3)"
  isMutable value := value = "[]"
  default value :=
    if value = "MISSING" then none else if value = "field(default=3)" then some "3" else some value
  default_none := rfl
  default_missing := rfl

/-- A body with one integer, under the name `seed`. -/
def seedBody (raw : Option (Attribute String (FieldInfo String))) :
    ClassBody String (FieldInfo String) where
  annotations := [("seed", .type (some (.primitive .int)))]
  attributes := raw.elim ∅ fun raw => AList.singleton "seed" raw
  nodup := by decide

/-- A required seed, which a plain mixin has an attribute of the name of. -/
def seedHierarchy : List (Statement String (FieldInfo String)) :=
  [.mixin (AList.singleton "seed" (.object "9")), .subclass (seedBody none) [0]]

theorem isSome_seedHierarchy :
    ((hierarchy strings (inputState strings)).run seedHierarchy).isSome := rfl

def removedHierarchy : List (Statement String (FieldInfo String)) :=
  [.subclass (seedBody (some (.object "1"))) [],
    .subclass { annotations := [("seed", .classVar)], attributes := ∅, nodup := by decide } [0],
    .subclass { annotations := [], attributes := ∅, nodup := List.nodup_nil } [1, 0]]

def rawFieldHierarchy : List (Statement String (FieldInfo String)) :=
  [.subclass (seedBody (some (.object "field(default=3)"))) []]

end ReactorRuntime.Declarations
