import ReactorRuntime.Interface.Messages
import ReactorRuntime.Interface.Equiv.Declarations

/-!
# Messages go out under their published names

An instance of a class goes out under the name that the schema publishes the class under, with the
fields of that schema, if and only if the class is `Sound` (`goesOut_iff`): it is the one that the
registry has under its wire name, its dataclass has no field that hides the name or the method that
makes the wire form, and the dataclass has the fields of the record.

A class statement can be judged before it is made (`Keeps`), and all messages go out under their
published names if and only if every class statement keeps to that (`goOut_iff`).  A field called
`name` does not, and nor does a class whose wire name is that of another (`not_goOut`).
-/

namespace ReactorRuntime.Messages

open ReactorRuntime.Core
open ReactorRuntime.Declarations (ClassBody Annotation Declaration MessageFieldInfo TypedField)
open ReactorRuntime.Interface (TypeSpec)
open ReactorRuntime.Lists

variable {V : Type}

/-! ### The fields of a new class -/

theorem Class.mem_fields {c : Class V} {name : String} :
    name ∈ c.fields ↔ ((c.cls.fields.lookup name).any DataclassField.isField) = true := by
  unfold Class.fields
  rw [List.mem_filter]
  refine and_iff_right_of_imp fun hfield => ?_
  obtain ⟨field, hlookup, -⟩ := (Option.any_eq_true _ _).mp hfield
  exact AList.mem_keys.mpr (AList.lookup_isSome.mp (Option.isSome_of_eq_some hlookup))

def closest (mro : List (Class V)) (name : String) :
    Option (DataclassField V (MessageFieldInfo V)) :=
  mro.findSome? fun base => base.cls.fields.lookup name

def isField (body : ClassBody V (MessageFieldInfo V)) (mro : List (Class V)) (name : String) :
    Bool :=
  match body.annotations.lookup name with
  | some .classVar => false
  | some (.type _) => true
  | none => (closest mro name).any DataclassField.isField

/-- A name that a class does not annotate comes to its record as it comes to its dataclass: it is
not in the record of a base where the closest base has it as a `ClassVar`, and it is where the
closest one, which may be a mixin, has it as a field. -/
structure Merges (body : ClassBody V (MessageFieldInfo V)) (mro : List (Class V)) : Prop where
  removed : ∀ name, body.annotations.lookup name = none → closest mro name = some .classVar →
    ∀ base ∈ mro, name ∉ base.cls.record
  mixed : ∀ name default, body.annotations.lookup name = none →
    closest mro name = some (.field default) → ∃ base ∈ mro, name ∈ base.cls.record

section Define

variable [DecidableEq V] {py : Names V} {fits : TypeSpec → V → Bool} {pyName name : String}
  {doc : V} {body : ClassBody V (MessageFieldInfo V)} {mro : List (Class V)} {c : Class V}

theorem declared_cases {hint : Annotation} {raw : Option (Name V)}
    {declaration : Declaration (TypedField (MessageFieldInfo V)) V (MessageFieldInfo V)}
    (h : Declarations.declareTyped py.toObjects (Declarations.messageFieldKind py.toObjects) fits
      hint raw = some declaration) :
    hint = .classVar ∧ declaration = .classVar ∨
      (∃ spec, hint = .type spec) ∧ declaration.recorded.isSome = true ∧
        (declaration.field py.toObjects).isField = true := by
  unfold Declarations.declareTyped at h
  rcases hint with - | (- | spec)
  · cases h
    exact .inl ⟨rfl, rfl⟩
  · cases h
  · refine .inr ⟨⟨_, rfl⟩, ?_⟩
    rcases raw with - | (value | info)
    · cases h
      exact ⟨rfl, rfl⟩
    · dsimp only at h
      split_ifs at h
      cases h
      exact ⟨rfl, rfl⟩
    · dsimp only at h
      cases hdefault : (Declarations.messageFieldKind py.toObjects).default info with
      | none =>
        rw [hdefault] at h
        cases h
        exact ⟨rfl, rfl⟩
      | some default =>
        rw [hdefault] at h
        dsimp only at h
        split_ifs at h
        cases h
        exact ⟨rfl, rfl⟩

theorem initSubclass_eq_some (h : initSubclass py fits pyName doc body mro = some c) :
    ∃ cls, Declarations.build py.toObjects (Declarations.modelMessage py.toObjects fits)
        (documented doc body) (mro.map Class.cls) = some cls ∧
      c =
        { pyName, wireName := wireName py pyName cls.attributes
          cls := { cls with
            attributes := cls.attributes.insert "name" (wireName py pyName cls.attributes) } } := by
  obtain ⟨cls, hbuild, h⟩ := Option.bind_eq_some_iff.mp h
  dsimp only at h
  split_ifs at h
  exact ⟨cls, hbuild, (Option.some.inj h).symm⟩

theorem lookup_declareAll
    {declarations : List (String × Declaration (TypedField (MessageFieldInfo V)) V
      (MessageFieldInfo V))}
    (h : Declarations.declareAll (Declarations.modelMessage py.toObjects fits) body.attributes
      body.annotations = some declarations) (name : String) :
    body.annotations.lookup name = none ∧ declarations.lookup name = none ∨
      body.annotations.lookup name = some .classVar ∧
        declarations.lookup name = some .classVar ∨
      ∃ spec declaration, body.annotations.lookup name = some (.type spec) ∧
        declarations.lookup name = some declaration ∧ declaration.recorded.isSome = true ∧
        (declaration.field py.toObjects).isField = true := by
  have hkeys := Declarations.map_fst_declareAll h
  have hnodup : (declarations.map Prod.fst).Nodup := by
    rw [hkeys]
    exact body.nodup
  cases hhint : body.annotations.lookup name with
  | none =>
    refine .inl ⟨rfl, ?_⟩
    rw [List.lookup_eq_none_iff]
    intro d hd
    rw [bne_iff_ne]
    rintro rfl
    obtain ⟨hint, hmem, -⟩ := Declarations.mem_declareAll h hd
    rw [(Declarations.lookup_eq_some_iff_mem body.nodup).mpr hmem] at hhint
    cases hhint
  | some hint =>
    have hmem := (Declarations.lookup_eq_some_iff_mem body.nodup).mp hhint
    obtain ⟨declaration, hmem', hdeclare⟩ := Declarations.exists_declaration h hmem
    have hlookup := (Declarations.lookup_eq_some_iff_mem hnodup).mpr hmem'
    rcases declared_cases hdeclare with ⟨rfl, rfl⟩ | ⟨⟨spec, rfl⟩, hrecorded, hfield⟩
    · exact .inr (.inl ⟨rfl, hlookup⟩)
    · exact .inr (.inr ⟨spec, declaration, rfl, hlookup, hrecorded, hfield⟩)

theorem mem_fields_initSubclass (h : initSubclass py fits pyName doc body mro = some c) :
    name ∈ c.fields ↔ isField body mro name = true := by
  obtain ⟨cls, hbuild, rfl⟩ := initSubclass_eq_some h
  obtain ⟨declarations, hdeclared, -, hfields⟩ :=
    Declarations.build_eq_some (Declarations.lawful_typed _ fits) hbuild
  rw [Class.mem_fields]
  show ((cls.fields.lookup name).any DataclassField.isField) = true ↔ _
  rw [hfields, List.findSome?_map]
  unfold isField
  obtain ⟨hhint, hlookup⟩ | ⟨hhint, hlookup⟩ | ⟨spec, declaration, hhint, hlookup, -, hfield⟩ :=
    lookup_declareAll hdeclared name
  · rw [show body.annotations.lookup name = none from hhint, hlookup]
    rfl
  · rw [show body.annotations.lookup name = some .classVar from hhint, hlookup]
    rfl
  · rw [show body.annotations.lookup name = some (.type spec) from hhint, hlookup]
    exact iff_of_true hfield rfl

theorem mem_record_initSubclass (h : initSubclass py fits pyName doc body mro = some c) :
    name ∈ c.cls.record ↔ (∃ spec, body.annotations.lookup name = some (.type spec)) ∨
      body.annotations.lookup name = none ∧ ∃ base ∈ mro, name ∈ base.cls.record := by
  obtain ⟨cls, hbuild, rfl⟩ := initSubclass_eq_some h
  obtain ⟨declarations, hdeclared, hrecord, -⟩ :=
    Declarations.build_eq_some (Declarations.lawful_typed _ fits) hbuild
  show name ∈ cls.record ↔ _
  rw [← AList.lookup_isSome, hrecord, List.findSome?_map]
  obtain ⟨hhint, hlookup⟩ | ⟨hhint, hlookup⟩ | ⟨spec, declaration, hhint, hlookup, hfield, -⟩ :=
    lookup_declareAll hdeclared name
  · rw [show body.annotations.lookup name = none from hhint, hlookup]
    simp only [Option.map_none, Option.getD_none, List.isSome_findSome?, List.any_eq_true,
      Function.comp_apply, AList.lookup_isSome, reduceCtorEq, exists_const, false_or, true_and]
  · rw [show body.annotations.lookup name = some .classVar from hhint, hlookup]
    simp [Declaration.recorded]
  · rw [show body.annotations.lookup name = some (.type spec) from hhint, hlookup]
    refine iff_of_true hfield (.inl ⟨spec, rfl⟩)

omit [DecidableEq V] in
theorem lookup_foldl_erase (attributes : Table (Name V)) (required : List String)
    (hname : name ∉ required) :
    (required.foldl (fun attributes first => attributes.erase first) attributes).lookup name =
      attributes.lookup name := by
  induction required generalizing attributes with
  | nil => rfl
  | cons first required ih =>
    rw [List.mem_cons, not_or] at hname
    rw [List.foldl_cons, ih _ hname.2, lookup_erase_if, if_neg hname.1]

theorem lookup_attributes_build {cls : Fields V} {bases : List (Fields V)}
    (h : Declarations.build py.toObjects (Declarations.modelMessage py.toObjects fits) body bases =
      some cls)
    (hname : ∀ spec, body.annotations.lookup name ≠ some (.type spec)) :
    cls.attributes.lookup name = body.attributes.lookup name := by
  obtain ⟨declarations, hdeclared, h⟩ := Option.bind_eq_some_iff.mp h
  cases h
  have hnodup : (declarations.map Prod.fst).Nodup := by
    rw [Declarations.map_fst_declareAll hdeclared]
    exact body.nodup
  -- The name is not declared, or as a `ClassVar`.
  have hlookup : declarations.lookup name = none ∨ declarations.lookup name = some .classVar := by
    obtain ⟨-, hlookup⟩ | ⟨-, hlookup⟩ | ⟨spec, -, hhint, -⟩ := lookup_declareAll hdeclared name
    · exact .inl hlookup
    · exact .inr hlookup
    · exact absurd hhint (hname spec)
  have hrequired : name ∉ (declarations.filter fun d => d.2.isRequired).map Prod.fst := by
    intro hmem
    obtain ⟨d, hd, rfl⟩ := List.mem_map.mp hmem
    obtain ⟨hd, hreq⟩ := List.mem_filter.mp hd
    rw [(Declarations.lookup_eq_some_iff_mem hnodup).mpr hd] at hlookup
    obtain hlookup | hlookup := hlookup
    · cases hlookup
    · rw [Option.some.inj hlookup] at hreq
      cases hreq
  have hdefaults : (declarations.foldl Declarations.setDefault body.attributes).lookup name =
      body.attributes.lookup name := by
    rw [get_foldl (fun (attributes : Table (Name V)) name => attributes.lookup name)
      Declarations.setDefault (fun _ d unset => d.value?.or unset) ?_ ?_ hnodup]
    · obtain hlookup | hlookup := hlookup <;> rw [hlookup] <;> rfl
    · intro attributes d _
      obtain ⟨first, declaration⟩ := d
      rcases declaration with - | - | ⟨entry, value⟩
      · rfl
      · rfl
      · exact AList.lookup_insert attributes
    · intro attributes d _ name hname
      obtain ⟨first, declaration⟩ := d
      rcases declaration with - | - | ⟨entry, value⟩
      · rfl
      · rfl
      · exact AList.lookup_insert_ne hname
  refine (lookup_foldl_erase _ _ hrequired).trans ?_
  rw [lookup_hidden, if_neg hrequired, hdefaults]

theorem wireName_initSubclass (h : initSubclass py fits pyName doc body mro = some c)
    (hname : isField body mro "name" = false) :
    c.wireName = some (wireName py pyName body.attributes) := by
  obtain ⟨cls, hbuild, rfl⟩ := initSubclass_eq_some h
  have hattribute : cls.attributes.lookup "name" = body.attributes.lookup "name" := by
    refine (lookup_attributes_build hbuild ?_).trans (AList.lookup_insert_ne (by decide))
    intro spec hhint
    rw [isField, show body.annotations.lookup "name" = some (.type spec) from hhint] at hname
    cases hname
  show some (wireName py pyName cls.attributes) = _
  unfold wireName
  rw [hattribute]

end Define

/-! ### How an instance goes out -/

/-- An instance goes out under the name that the schema publishes its class under, with the fields
of that schema. -/
def State.GoesOut (s : State V) [DecidableEq V] (i : ℕ) (m : Message V) : Prop :=
  ∃ name fields data, s.registry.lookup name = some i ∧ s.schema.lookup name = some fields ∧
    (∀ field, field ∈ data.map Prod.fst ↔ field ∈ fields) ∧
    m.toWireFormat = some { type := name, data } ∧
    m.broadcast = some
      { saved := { type := name, data }
        encoded := { type := name, data }
        observed := { type := name, data } } ∧
    m.sendAddressed = some
      { encoded := { type := name, data }
        observed := { type := name, data } }

/-- A class whose instances go out as they should: it is the one in the registry, and its dataclass
has the fields of its record, of which none hides the name or the method. -/
structure Class.Sound [DecidableEq V] (s : State V) (i : ℕ) (c : Class V) : Prop where
  registered : ∃ name, c.wireName = some name ∧ s.registry.lookup name = some i
  name : "name" ∉ c.fields
  method : "to_wire_format" ∉ c.fields
  keys : ∀ field, field ∈ c.fields ↔ field ∈ c.cls.record

structure State.Registered (s : State V) : Prop where
  entries : ∀ entry ∈ s.registry, ∃ c, s.classes[entry.2]? = some c ∧ c.wireName = some entry.1

section Instances

variable [DecidableEq V] {s : State V} {c : Class V} {i : ℕ} {name : Name V}

theorem State.lookup_schema (h : s.Registered) :
    s.schema.lookup name =
      ((s.registry.lookup name).bind fun i => s.classes[i]?).map fun c => c.cls.record.keys := by
  have hentries := h.entries
  unfold State.schema
  generalize s.registry = registry at hentries
  induction registry with
  | nil => rfl
  | cons entry registry ih =>
    obtain ⟨c, hc, -⟩ := hentries entry List.mem_cons_self
    have ih := ih fun e he => hentries e (List.mem_cons_of_mem _ he)
    rw [List.filterMap_cons_some (b := (entry.1, c.cls.record.keys)) (by rw [hc, Option.map_some]),
      Dict.lookup_cons_if, Dict.lookup_cons_if, ih]
    split_ifs
    · rw [Option.bind_some, hc, Option.map_some]
    · rfl

omit [DecidableEq V] in
theorem map_fst_data (fields : List String) (values : String → V) :
    (fields.map fun f => (f, values f)).map Prod.fst = fields := by
  rw [List.map_map]
  exact List.map_id fields

omit [DecidableEq V] in
theorem Message.sends (m : Message V) (hmethod : "to_wire_format" ∉ m.type.fields)
    (hname : m.name = some name) :
    let wire : Wire V := { type := name, data := m.type.fields.map fun f => (f, m.values f) }
    m.toWireFormat = some wire ∧
      m.broadcast = some { saved := wire, encoded := wire, observed := wire } ∧
      m.sendAddressed = some { encoded := wire, observed := wire } := by
  have hwire : m.toWireFormat =
      some { type := name, data := m.type.fields.map fun f => (f, m.values f) } := by
    unfold Message.toWireFormat
    rw [if_neg hmethod, hname, Option.map_some]
  refine ⟨hwire, ?_, ?_⟩
  · unfold Message.broadcast
    rw [hwire, hname]
    rfl
  · unfold Message.sendAddressed
    rw [hwire, hname]
    rfl

/-- Every instance of a message goes out as it should if and only if its class is sound. -/
theorem goesOut_iff (py : Names V) (h : s.Registered) (hc : s.classes[i]? = some c)
    (hmessage : c.wireName.isSome = true) :
    (∀ values, s.GoesOut i { type := c, values }) ↔ Class.Sound s i c := by
  obtain ⟨own, hown⟩ := Option.isSome_iff_exists.mp hmessage
  constructor
  · intro hgoes
    have hmethod : "to_wire_format" ∉ c.fields := by
      intro hmem
      obtain ⟨name, fields, data, -, -, -, hwire, -⟩ := hgoes fun _ => py.none
      unfold Message.toWireFormat at hwire
      rw [if_pos hmem] at hwire
      cases hwire
    have hwires (values : String → V) {name : Name V} {wire : Wire V}
        (hname : Message.name { type := c, values } = some name)
        (hwire : Message.toWireFormat { type := c, values } = some wire) : wire.type = name := by
      have hsends := (Message.sends { type := c, values } hmethod hname).1
      rw [hwire] at hsends
      exact congrArg Wire.type (Option.some.inj hsends)
    have hname : "name" ∉ c.fields := by
      intro hmem
      -- The field may hold a string that the class is not published under.
      have hfield (text : String) : own = .object (py.str text) := by
        obtain ⟨name, fields, data, hlookup, -, -, hwire, -⟩ := hgoes fun _ => py.str text
        have hvalue : Message.name { type := c, values := fun _ => py.str text } =
            some (.object (py.str text)) := if_pos hmem
        have htype : name = .object (py.str text) := hwires _ hvalue hwire
        obtain ⟨c', hc', hown'⟩ := h.entries _ (Dict.mem_of_lookup hlookup)
        obtain rfl := Option.some.inj (hc.symm.trans hc')
        exact (Option.some.inj (hown.symm.trans hown')).trans htype
      have hab := (hfield "a").symm.trans (hfield "b")
      exact absurd (py.str_injective (Attribute.object.inj hab)) (by decide)
    have hgo := hgoes fun _ => py.none
    obtain ⟨name, fields, data, hlookup, hschema, hkeys, hwire, -⟩ := hgo
    have hattribute : Message.name { type := c, values := fun _ => py.none } = some own :=
      (if_neg hname).trans hown
    have hsends := (Message.sends { type := c, values := fun _ => py.none } hmethod hattribute).1
    obtain ⟨rfl, rfl⟩ := Wire.mk.inj (Option.some.inj (hwire.symm.trans hsends))
    refine ⟨⟨name, hown, hlookup⟩, hname, hmethod, fun field => ?_⟩
    rw [State.lookup_schema h, hlookup, Option.bind_some, hc, Option.map_some] at hschema
    rw [AList.mem_keys, Option.some.inj hschema, ← hkeys field, map_fst_data]
  · rintro ⟨⟨name, hname, hlookup⟩, hfield, hmethod, hkeys⟩ values
    have hattribute : Message.name { type := c, values } = some name := (if_neg hfield).trans hname
    have hsends := Message.sends { type := c, values } hmethod hattribute
    refine ⟨name, c.cls.record.keys, _, hlookup, ?_, fun field => ?_, hsends⟩
    · rw [State.lookup_schema h, hlookup, Option.bind_some, hc, Option.map_some]
    · rw [map_fst_data, ← AList.mem_keys]
      exact hkeys field

end Instances

/-! ### Programs -/

/-- Every instance of every message goes out as it should, and no class has the wire name of a class
that is called otherwise. -/
structure State.GoOut [DecidableEq V] (s : State V) : Prop where
  own : ∀ (i : ℕ) (c : Class V), s.classes[i]? = some c → c.wireName.isSome = true →
    ∀ values, s.GoesOut i { type := c, values }
  distinct : ∀ (i j : ℕ) (c c' : Class V), s.classes[i]? = some c → s.classes[j]? = some c' →
    c.wireName.isSome = true → c.pyName ≠ c'.pyName → c.wireName ≠ c'.wireName

/-- The condition on a class statement: no field hides the name of a message or the method that
makes its wire form, the wire name is not in the registry, and the names that the class inherits
come to its record as they come to its dataclass. -/
def Keeps [DecidableEq V] (py : Names V) (s : State V) : Statement V → Prop
  | .mixin _ _ _ => True
  | .message pyName _ body places => ∀ mro, classesAt s.classes places = some mro →
      isField body mro "name" = false ∧ isField body mro "to_wire_format" = false ∧
        s.registry.lookup (wireName py pyName body.attributes) = none ∧ Merges body mro

def State.AllSound [DecidableEq V] (s : State V) : Prop :=
  ∀ i c, s.classes[i]? = some c → c.wireName.isSome = true → Class.Sound s i c

structure State.Formed (s : State V) : Prop extends State.Registered s where
  mixins : ∀ c ∈ s.classes, c.wireName = none → c.cls.record = ∅

section Program

variable [DecidableEq V] {py : Names V} {fits : TypeSpec → V → Bool} {s s' : State V}
  {statement : Statement V}

theorem State.goOut_iff_allSound (py : Names V) (h : s.Registered) : s.GoOut ↔ s.AllSound := by
  constructor
  · intro hgo i c hc hmessage
    exact (goesOut_iff py h hc hmessage).mp (hgo.own i c hc hmessage)
  · intro hall
    refine ⟨fun i c hc hmessage => (goesOut_iff py h hc hmessage).mpr (hall i c hc hmessage), ?_⟩
    intro i j c c' hc hc' hmessage hname heq
    obtain ⟨name, hown, hi⟩ := (hall i c hc hmessage).registered
    obtain ⟨name', hown', hj⟩ := (hall j c' hc' (heq ▸ hmessage)).registered
    -- Both are in the registry under the one name.
    obtain rfl := Option.some.inj ((hown.symm.trans heq).trans hown')
    obtain rfl := Option.some.inj (hi.symm.trans hj)
    obtain rfl := Option.some.inj (hc.symm.trans hc')
    exact hname rfl

theorem State.define_message {pyName : String} {doc : V}
    {body : ClassBody V (MessageFieldInfo V)} {places : List ℕ}
    (h : s.define py fits (.message pyName doc body places) = some s') :
    ∃ mro c name, classesAt s.classes places = some mro ∧
      initSubclass py fits pyName doc body mro = some c ∧ c.wireName = some name ∧
      s' =
        { classes := s.classes ++ [c], registry := Dict.set s.registry name s.classes.length } := by
  obtain ⟨mro, hmro, h⟩ := Option.bind_eq_some_iff.mp h
  obtain ⟨c, hc, h⟩ := Option.bind_eq_some_iff.mp h
  obtain ⟨name, hname, h⟩ := Option.bind_eq_some_iff.mp h
  exact ⟨mro, c, name, hmro, hc, hname, (Option.some.inj h).symm⟩

/-- The classes that are there keep their places. -/
theorem getElem?_concat_of_eq_some {classes : List (Class V)} {i : ℕ} {c : Class V}
    (h : classes[i]? = some c) (c' : Class V) : (classes ++ [c'])[i]? = some c :=
  (List.getElem?_append_left (List.getElem?_eq_some_iff.mp h).1).trans h

theorem formed_isInvariant : (program py fits).IsInvariant State.Formed where
  init := by
    refine ⟨⟨?_⟩, ?_⟩
    · intro entry hentry
      cases hentry
    · intro c hc
      cases hc
  step s statement s' h hstep := by
    rcases statement with ⟨pyName, attributes, fields⟩ | ⟨pyName, doc, body, places⟩
    · cases hstep
      refine ⟨⟨fun entry hentry => ?_⟩, fun c hc hnone => ?_⟩
      · obtain ⟨c, hc, hname⟩ := h.entries entry hentry
        exact ⟨c, getElem?_concat_of_eq_some hc _, hname⟩
      · rcases List.mem_append.mp hc with hc | hc
        · exact h.mixins c hc hnone
        · rw [List.mem_singleton.mp hc]
    · obtain ⟨mro, c, name, -, hc, hname, rfl⟩ := State.define_message hstep
      refine ⟨⟨fun entry hentry => ?_⟩, fun c' hc' hnone => ?_⟩
      · rcases Dict.mem_of_mem_set hentry with hold | rfl
        · obtain ⟨c', hc', hname'⟩ := h.entries entry hold
          exact ⟨c', getElem?_concat_of_eq_some hc' c, hname'⟩
        · exact ⟨c, List.getElem?_concat_length, hname⟩
      · rcases List.mem_append.mp hc' with hc' | hc'
        · exact h.mixins c' hc' hnone
        · rw [List.mem_singleton.mp hc', hname] at hnone
          cases hnone

theorem State.AllSound.lookup_of_mem_record (hall : s.AllSound) (h : s.Formed) {c : Class V}
    (hc : c ∈ s.classes) {name : String} (hname : name ∈ c.cls.record) : name ∈ c.fields := by
  obtain ⟨i, hi⟩ := List.mem_iff_getElem?.mp hc
  cases hmessage : c.wireName with
  | none =>
    rw [h.mixins c hc hmessage] at hname
    exact absurd hname (AList.notMem_empty name)
  | some own =>
    have hsound := hall i c hi (Option.isSome_of_eq_some hmessage)
    exact (hsound.keys name).mpr hname

theorem State.allSound_define (h : s.Formed) (hstep : s.define py fits statement = some s') :
    s'.AllSound ↔ s.AllSound ∧ Keeps py s statement := by
  rcases statement with ⟨pyName, attributes, fields⟩ | ⟨pyName, doc, body, places⟩
  · cases hstep
    refine ⟨fun hall => ⟨fun i c hc hmessage => ?_, trivial⟩, fun ⟨hall, _⟩ i c hc hmessage => ?_⟩
    · obtain ⟨hregistered, hname, hmethod, hkeys⟩ :=
        hall i c (getElem?_concat_of_eq_some hc _) hmessage
      exact ⟨hregistered, hname, hmethod, hkeys⟩
    · change (s.classes ++ [_])[i]? = some c at hc
      rw [List.getElem?_append] at hc
      split_ifs at hc with hlt
      · obtain ⟨hregistered, hname, hmethod, hkeys⟩ := hall i c hc hmessage
        exact ⟨hregistered, hname, hmethod, hkeys⟩
      · rw [List.mem_singleton.mp (List.mem_of_getElem? hc)] at hmessage
        cases hmessage
  · obtain ⟨mro, c, name, hmro, hc, hname, rfl⟩ := State.define_message hstep
    have hlookup (n : Name V) : (Dict.set s.registry name s.classes.length).lookup n =
        if n = name then some s.classes.length else s.registry.lookup n := Dict.lookup_set
    have hbases (base : Class V) (hbase : base ∈ mro) : base ∈ s.classes := by
      obtain ⟨place, -, hplace⟩ := exists_of_mem_mapM hmro hbase
      exact List.mem_of_getElem? hplace
    constructor
    · intro hall
      have hnew := hall s.classes.length c List.getElem?_concat_length
        (Option.isSome_of_eq_some hname)
      have hfield (n : String) : n ∈ c.fields ↔ isField body mro n = true :=
        mem_fields_initSubclass hc
      have hold : s.AllSound := by
        intro i c' hc' hmessage
        have hlt : i < s.classes.length := (List.getElem?_eq_some_iff.mp hc').1
        obtain ⟨⟨n, hn, hregistered⟩, hfieldName, hmethod, hkeys⟩ :=
          hall i c' (getElem?_concat_of_eq_some hc' c) hmessage
        refine ⟨⟨n, hn, ?_⟩, hfieldName, hmethod, hkeys⟩
        rw [hlookup] at hregistered
        split_ifs at hregistered
        · have heq := Option.some.inj hregistered
          omega
        · exact hregistered
      refine ⟨hold, fun mro' hmro' => ?_⟩
      obtain rfl := Option.some.inj (hmro.symm.trans hmro')
      have hname' : isField body mro "name" = false :=
        Bool.eq_false_iff.mpr fun h => hnew.name ((hfield _).mpr h)
      refine ⟨hname', Bool.eq_false_iff.mpr fun h => hnew.method ((hfield _).mpr h), ?_, ?_⟩
      · -- A class that was in the registry under the name would not be in it any more.
        have hwire := Option.some.inj ((wireName_initSubclass hc hname').symm.trans hname)
        rw [hwire, Option.eq_none_iff_forall_ne_some]
        intro i hi
        obtain ⟨c', hc', hown⟩ := h.entries _ (Dict.mem_of_lookup hi)
        have hlt : i < s.classes.length := (List.getElem?_eq_some_iff.mp hc').1
        obtain ⟨⟨n, hn, hregistered⟩, -⟩ :=
          hall i c' (getElem?_concat_of_eq_some hc' c) (Option.isSome_of_eq_some hown)
        obtain rfl := Option.some.inj (hown.symm.trans hn)
        rw [hlookup, if_pos rfl] at hregistered
        have heq := Option.some.inj hregistered
        omega
      · constructor
        · intro n hhint hclosest base hbase hmem
          have hrecord := (mem_record_initSubclass hc).mpr (.inr ⟨hhint, base, hbase, hmem⟩)
          have hmem := (hfield n).mp ((hnew.keys n).mpr hrecord)
          unfold isField at hmem
          rw [hhint, hclosest] at hmem
          cases hmem
        · intro n default hhint hclosest
          have hmem : n ∈ c.fields := by
            rw [hfield]
            unfold isField
            rw [hhint, hclosest]
            rfl
          rcases (mem_record_initSubclass hc).mp ((hnew.keys n).mp hmem) with ⟨spec, hspec⟩ | ⟨-, h⟩
          · cases hhint.symm.trans hspec
          · exact h
    · rintro ⟨hall, hkeeps⟩
      obtain ⟨hnameField, hmethod, hfree, hmerges⟩ := hkeeps mro hmro
      have hwire := Option.some.inj ((wireName_initSubclass hc hnameField).symm.trans hname)
      rw [hwire] at hfree
      intro i c' hc' hmessage
      change (s.classes ++ [c])[i]? = some c' at hc'
      rw [List.getElem?_append] at hc'
      split_ifs at hc' with hlt
      · obtain ⟨⟨n, hn, hregistered⟩, hfieldName, hmethod', hkeys⟩ := hall i c' hc' hmessage
        refine ⟨⟨n, hn, ?_⟩, hfieldName, hmethod', hkeys⟩
        rw [hlookup, if_neg, hregistered]
        rintro rfl
        cases hfree.symm.trans hregistered
      · have hi : i = s.classes.length := by
          have := (List.getElem?_eq_some_iff.mp hc').1
          rw [List.length_singleton] at this
          omega
        obtain rfl := List.mem_singleton.mp (List.mem_of_getElem? hc')
        refine ⟨⟨name, hname, ?_⟩, ?_, ?_, fun n => ?_⟩
        · rw [hlookup, if_pos rfl, hi]
        · rw [mem_fields_initSubclass hc, hnameField]
          exact Bool.false_ne_true
        · rw [mem_fields_initSubclass hc, hmethod]
          exact Bool.false_ne_true
        · rw [mem_fields_initSubclass hc, mem_record_initSubclass hc]
          unfold isField
          cases hhint : body.annotations.lookup n with
          | some hint =>
            cases hint with
            | classVar => simp
            | type spec => simp
          | none =>
            simp only [reduceCtorEq, exists_const, false_or, true_and]
            cases hclosest : closest mro n with
            | none =>
              -- No base has the name in its dataclass, nor then in its record.
              refine iff_of_false Bool.false_ne_true ?_
              rintro ⟨base, hbase, hmem⟩
              have hfield := hall.lookup_of_mem_record h (hbases base hbase) hmem
              rw [Class.mem_fields, List.findSome?_eq_none_iff.mp hclosest base hbase] at hfield
              cases hfield
            | some field =>
              cases field with
              | classVar =>
                refine iff_of_false Bool.false_ne_true ?_
                rintro ⟨base, hbase, hmem⟩
                exact hmerges.removed n hhint hclosest base hbase hmem
              | field default => exact iff_of_true rfl (hmerges.mixed n default hhint hclosest)

end Program

/-! ### Some programs -/

def plain : Names String where
  toObjects := Declarations.strings
  str := id
  lower := String.toLower
  hashable _ := true
  str_injective := Function.injective_id

/-- A body with fields of type `str`, without defaults. -/
def textBody (names : List String) (h : names.Nodup) :
    ClassBody String (MessageFieldInfo String) where
  annotations := names.map fun name => (name, .type (some (.primitive .str)))
  attributes := ∅
  nodup := by
    rw [List.map_map]
    exact (List.map_id names).symm ▸ h

/-- Two messages that have no bases. -/
def plainProgram : List (Statement String) :=
  [.message "CurrentMode" "The mode." (textBody ["mode"] (by decide)) [],
    .message "Done" "None" (textBody [] List.nodup_nil) []]

theorem isSome_plainProgram :
    ((program plain fun _ _ => true).run plainProgram).isSome := rfl

/-- A message with a field called `name`. -/
def namedProgram : List (Statement String) :=
  [.message "Person" "None" (textBody ["name"] (by decide)) []]

/-- Two classes that are converted to one wire name. -/
def sharedProgram : List (Statement String) :=
  [.message "HTTPDone" "None" (textBody ["status"] (by decide)) [],
    .message "HttpDone" "None" (textBody ["code"] (by decide)) []]

theorem isSome_namedProgram :
    ((program plain fun _ _ => true).run namedProgram).isSome := rfl

theorem isSome_sharedProgram :
    ((program plain fun _ _ => true).run sharedProgram).isSome := rfl

end ReactorRuntime.Messages
