import ReactorRuntime.Interface.AppContract
import ReactorRuntime.Lists.Pointwise

/-!
# Commands resolve the same way in every hierarchy

The walk of `ModelContract.build` binds a name to its first claim, and refuses the class where two
claims of a name come from methods of different names (`bindCommands_eq_ok`, `lookup_bindCommands`).
So a hand-written handler wins where it claims its name before a generated setter does, and from a
method that is called as the setter is.

That is not so in every hierarchy: a handler of `set_speed` that is called otherwise clashes with
the setter of a base, one in a base that comes after the base with the setter loses to it, and one
of another name whose method is called `set_speed` is overwritten (`not_resolve`).  Where a class
statement does none of that, the commands resolve as they should, and only there (`resolve_iff`).
-/

namespace ReactorRuntime.AppContract

open Lists

variable {F M : Type}

theorem setName_injective {field field' : String} (h : setName field = setName field') :
    field = field' := by
  have hlists := congrArg String.toList h
  unfold setName at hlists
  rw [String.toList_append, String.toList_append] at hlists
  exact String.toList_injective (List.append_cancel_left hlists)

/-! ### The walk over the claims -/

section Walk

variable {commands claims result : List (String × Entry F M)} {name : String} {e : Entry F M}

theorem lookup_concat_of_eq_some {first : Entry F M} (h : commands.lookup name = some first)
    (other : String) :
    (commands ++ (name, e) :: claims).lookup other = (commands ++ claims).lookup other := by
  rw [List.lookup_append, List.lookup_append, Dict.lookup_cons_if]
  by_cases heq : other = name
  · subst heq
    rw [h]
    rfl
  · rw [if_neg heq]

theorem bindCommands_eq_ok (commands claims : List (String × Entry F M)) :
    (∃ result, bindCommands commands claims = .ok result) ↔
      ∀ name e, (name, e) ∈ claims → ∀ first, (commands ++ claims).lookup name = some first →
        first.attrName = e.attrName := by
  induction claims generalizing commands with
  | nil =>
    refine iff_of_true ⟨commands, rfl⟩ fun name e he => ?_
    cases he
  | cons claim claims ih =>
    obtain ⟨name, entry⟩ := claim
    unfold bindCommands
    cases hlookup : commands.lookup name with
    | none =>
      dsimp only
      rw [ih, List.append_assoc, List.singleton_append]
      constructor
      · intro h other e he
        rcases List.mem_cons.mp he with heq | he
        · obtain ⟨rfl, rfl⟩ := Prod.mk.inj heq
          intro first hfirst
          rw [List.lookup_append, hlookup, Option.none_or, List.lookup_cons_self] at hfirst
          rw [Option.some.inj hfirst]
        · exact h other e he
      · intro h other e he
        exact h other e (List.mem_cons_of_mem _ he)
    | some first =>
      dsimp only
      have hconcat (other : String) :
          (commands ++ (name, entry) :: claims).lookup other =
            (commands ++ claims).lookup other := lookup_concat_of_eq_some hlookup other
      split_ifs with hname
      · refine iff_of_false ?_ fun h => hname ?_
        · rintro ⟨result, hresult⟩
          cases hresult
        · refine h name entry List.mem_cons_self first ?_
          rw [List.lookup_append, hlookup, Option.some_or]
      · rw [ih]
        constructor
        · intro h other e he first' hfirst'
          rw [hconcat] at hfirst'
          rcases List.mem_cons.mp he with heq | he
          · obtain ⟨rfl, rfl⟩ := Prod.mk.inj heq
            rw [List.lookup_append, hlookup, Option.some_or] at hfirst'
            rw [← Option.some.inj hfirst']
            exact not_not.mp hname
          · exact h other e he first' hfirst'
        · intro h other e he first' hfirst'
          rw [← hconcat] at hfirst'
          exact h other e (List.mem_cons_of_mem _ he) first' hfirst'

theorem lookup_bindCommands (h : bindCommands commands claims = .ok result) (name : String) :
    result.lookup name = (commands ++ claims).lookup name := by
  induction claims generalizing commands with
  | nil =>
    obtain rfl := Except.ok.inj h
    rw [List.append_nil]
  | cons claim claims ih =>
    obtain ⟨claimed, entry⟩ := claim
    unfold bindCommands at h
    cases hlookup : commands.lookup claimed with
    | none =>
      rw [hlookup] at h
      rw [ih h, List.append_assoc, List.singleton_append]
    | some first =>
      rw [hlookup] at h
      dsimp only at h
      split_ifs at h
      rw [ih h, lookup_concat_of_eq_some hlookup]

theorem nodup_bindCommands (h : bindCommands commands claims = .ok result)
    (hnodup : (commands.map Prod.fst).Nodup) : (result.map Prod.fst).Nodup := by
  induction claims generalizing commands with
  | nil =>
    obtain rfl := Except.ok.inj h
    exact hnodup
  | cons claim claims ih =>
    obtain ⟨claimed, entry⟩ := claim
    unfold bindCommands at h
    cases hlookup : commands.lookup claimed with
    | none =>
      rw [hlookup] at h
      refine ih h ?_
      rw [List.map_append, List.nodup_append]
      refine ⟨hnodup, List.nodup_singleton _, fun a ha b hb heq => ?_⟩
      obtain ⟨⟨key, value⟩, hpair, rfl⟩ := List.mem_map.mp ha
      obtain rfl : key = claimed := heq.trans (List.mem_singleton.mp hb)
      cases hlookup.symm.trans (Dict.lookup_of_mem hnodup hpair)
    | some first =>
      rw [hlookup] at h
      dsimp only at h
      split_ifs at h
      exact ih h hnodup

end Walk

/-! ### The attributes of a class -/

def Body.Declares (body : Body F M) (name attrName : String) : Prop :=
  ∃ handler, (attrName, some handler) ∈ body.attributes ∧ handler.name = name

def Class.Generates (c : Class F M) (field : String) : Prop :=
  ∃ declared, (setName field, .setter field declared) ∈ c.attributes

section Stamp

variable {existing : List String} {state : StateClass F} {attributes : List (String × Attr F M)}
  {fields : List (String × F)} {attrName : String} {attr : Attr F M}

theorem nodup_stamp (h : (attributes.map Prod.fst).Nodup) :
    ((stampAutoSetters existing state attributes).map Prod.fst).Nodup := by
  unfold stampAutoSetters
  generalize state.fields = fields
  induction fields generalizing attributes with
  | nil => exact h
  | cons field fields ih =>
    rw [List.foldl_cons]
    split_ifs
    · exact ih h
    · exact ih (Dict.nodup_set h)

theorem lookup_stamp_cases
    (h : (stampAutoSetters existing state attributes).lookup attrName = some attr) :
    attributes.lookup attrName = some attr ∨
      ∃ field declared, (field, declared) ∈ state.fields ∧ attrName = setName field ∧
        setName field ∉ existing ∧ attr = .setter field declared := by
  unfold stampAutoSetters at h
  generalize state.fields = fields at h ⊢
  induction fields generalizing attributes with
  | nil => exact .inl h
  | cons first fields ih =>
    rw [List.foldl_cons] at h
    rcases ih h with hold | ⟨field, declared, hmem, hrest⟩
    · split_ifs at hold with hexists
      · exact .inl hold
      · rw [Dict.lookup_set] at hold
        split_ifs at hold with hname
        · refine .inr ⟨first.1, first.2, List.mem_cons_self, hname, hexists, ?_⟩
          exact (Option.some.inj hold).symm
        · exact .inl hold
    · exact .inr ⟨field, declared, List.mem_cons_of_mem _ hmem, hrest⟩

theorem lookup_stamp_of_kept
    (h : ∀ field ∈ state.names, setName field = attrName → setName field ∈ existing) :
    (stampAutoSetters existing state attributes).lookup attrName = attributes.lookup attrName := by
  unfold stampAutoSetters
  unfold StateClass.names at h
  generalize state.fields = fields at h ⊢
  induction fields generalizing attributes with
  | nil => rfl
  | cons first fields ih =>
    rw [List.foldl_cons, ih fun field hfield => h field (List.mem_cons_of_mem _ hfield)]
    split_ifs with hexists
    · rfl
    · rw [Dict.lookup_set, if_neg]
      rintro rfl
      exact hexists (h first.1 List.mem_cons_self rfl)

theorem lookup_stamp_of_mem {field : String} {declared : F}
    (hmem : (field, declared) ∈ state.fields) (hfree : setName field ∉ existing) :
    (stampAutoSetters existing state attributes).lookup (setName field) =
      some (.setter field declared) := by
  have hnodup := state.nodup
  unfold stampAutoSetters
  generalize state.fields = fields at hmem hnodup ⊢
  induction fields generalizing attributes with
  | nil => cases hmem
  | cons first fields ih =>
    rw [List.map_cons, List.nodup_cons] at hnodup
    rw [List.foldl_cons]
    rcases List.mem_cons.mp hmem with rfl | hmem
    · rw [if_neg hfree]
      -- The later fields have other names.
      let stamped := Dict.set attributes (setName field) (Attr.setter field declared)
      have hlater : (stampAutoSetters existing ⟨fields, hnodup.2⟩ stamped).lookup (setName field) =
          stamped.lookup (setName field) := by
        refine lookup_stamp_of_kept fun field' hfield' heq => ?_
        rw [setName_injective heq] at hfield'
        exact absurd hfield' hnodup.1
      refine hlater.trans ?_
      rw [Dict.lookup_set, if_pos rfl]
    · exact ih hmem hnodup.2

end Stamp

section Class

variable {c : Class F M} {body : Body F M} {bases : List (Class F M)} {place : ℕ} {fails : Bool}
  {mro : List ℕ} {name attrName field : String} {declared : F} {handler : EventHandler M}
  {fields : List String} {e : Entry F M}

/-- What holds of the attributes of a class that is defined: they come from its body, except for
the setters, which stand for fields of its state whose commands its body does not declare. -/
structure Class.Formed (c : Class F M) : Prop where
  nodup : (c.attributes.map Prod.fst).Nodup
  events : ∀ attrName handler, (attrName, .own (some handler)) ∈ c.attributes →
    (attrName, some handler) ∈ c.body.attributes
  setters : ∀ attrName field declared, (attrName, .setter field declared) ∈ c.attributes →
    attrName = setName field ∧
      ∃ state, c.appState = some state ∧ (field, declared) ∈ state.fields
  apart : ∀ field attrName, c.Generates field → ¬ c.body.Declares (setName field) attrName

def Class.KeepsHandlers (c : Class F M) : Prop :=
  ∀ attrName handler, (attrName, some handler) ∈ c.body.attributes →
    (attrName, .own (some handler)) ∈ c.attributes

theorem mem_existingCommandNames :
    name ∈ existingCommandNames body bases ↔
      (∃ attrName, body.Declares name attrName) ∨
        ∃ base ∈ bases, ∃ attrName handler,
          (attrName, Attr.own (some handler)) ∈ base.attributes ∧ handler.name = name := by
  unfold existingCommandNames
  simp only [List.mem_map, List.mem_append, List.mem_filterMap, List.mem_flatMap, Prod.exists]
  constructor
  · rintro ⟨handler, ⟨attrName, _, hmem, rfl⟩ | ⟨base, hbase, attrName, attr, hmem, hattr⟩, hname⟩
    · exact .inl ⟨attrName, handler, hmem, hname⟩
    · cases attr with
      | setter field declared => cases hattr
      | own own =>
        obtain rfl : own = some handler := hattr
        exact .inr ⟨base, hbase, attrName, handler, hmem, hname⟩
  · rintro (⟨attrName, handler, hmem, hname⟩ | ⟨base, hbase, attrName, handler, hmem, hname⟩)
    · exact ⟨handler, .inl ⟨attrName, some handler, hmem, rfl⟩, hname⟩
    · exact ⟨handler, .inr ⟨base, hbase, attrName, .own (some handler), hmem, rfl⟩, hname⟩

theorem nodup_written (body : Body F M) :
    ((body.attributes.map fun e => (e.1, (Attr.own e.2 : Attr F M))).map Prod.fst).Nodup := by
  rw [List.map_map]
  exact body.nodup

theorem mem_written {own : Option (EventHandler M)} :
    (attrName, (Attr.own own : Attr F M)) ∈ body.attributes.map (fun e => (e.1, Attr.own e.2)) ↔
      (attrName, own) ∈ body.attributes := by
  rw [List.mem_map]
  constructor
  · rintro ⟨e, he, heq⟩
    obtain ⟨rfl, hown⟩ := Prod.mk.inj heq
    rw [← Attr.own.inj hown]
    exact he
  · intro he
    exact ⟨_, he, rfl⟩

theorem formed_written
    (hattributes : c.attributes = c.body.attributes.map fun e => (e.1, .own e.2)) :
    c.Formed where
  nodup := by
    rw [hattributes]
    exact nodup_written c.body
  events attrName handler h := by
    rw [hattributes] at h
    exact mem_written.mp h
  setters attrName field declared h := by
    rw [hattributes] at h
    obtain ⟨e, -, heq⟩ := List.mem_map.mp h
    cases (Prod.mk.inj heq).2
  apart field attrName := by
    rintro ⟨declared, h⟩
    rw [hattributes] at h
    obtain ⟨e, -, heq⟩ := List.mem_map.mp h
    cases (Prod.mk.inj heq).2

theorem attributes_initSubclass :
    (initSubclass place body fails mro bases).attributes =
      match resolveStateClass body.annotation fails bases with
      | some state => stampAutoSetters (existingCommandNames body bases) state
          (body.attributes.map fun e => (e.1, .own e.2))
      | none => body.attributes.map fun e => (e.1, .own e.2) := rfl

theorem formed_initSubclass : (initSubclass place body fails mro bases).Formed := by
  cases hstate : resolveStateClass body.annotation fails bases with
  | none =>
    refine formed_written ?_
    rw [attributes_initSubclass, hstate]
    rfl
  | some state =>
    have hattributes : (initSubclass place body fails mro bases).attributes =
        stampAutoSetters (existingCommandNames body bases) state
          (body.attributes.map fun e => (e.1, .own e.2)) := by
      rw [attributes_initSubclass, hstate]
    have hnodup : ((initSubclass place body fails mro bases).attributes.map Prod.fst).Nodup := by
      rw [hattributes]
      exact nodup_stamp (nodup_written body)
    -- An attribute comes from the body, or is a setter.
    have hcases (attrName : String) (attr : Attr F M)
        (h : (attrName, attr) ∈ (initSubclass place body fails mro bases).attributes) :
        (∃ own, attr = .own own ∧ (attrName, own) ∈ body.attributes) ∨
          ∃ field declared, (field, declared) ∈ state.fields ∧ attrName = setName field ∧
            setName field ∉ existingCommandNames body bases ∧ attr = .setter field declared := by
      have hlookup := Dict.lookup_of_mem hnodup h
      rw [hattributes] at hlookup
      refine (lookup_stamp_cases hlookup).imp_left fun hold => ?_
      obtain ⟨e, he, heq⟩ := List.mem_map.mp (Dict.mem_of_lookup hold)
      obtain ⟨rfl, rfl⟩ := Prod.mk.inj heq
      exact ⟨e.2, rfl, he⟩
    refine ⟨hnodup, fun attrName handler h => ?_, fun attrName field declared h => ?_, ?_⟩
    · rcases hcases attrName _ h with ⟨own, heq, hmem⟩ | ⟨field, declared, -, -, -, heq⟩
      · rw [Attr.own.inj heq]
        exact hmem
      · cases heq
    · rcases hcases attrName _ h with ⟨own, heq, -⟩ | ⟨field', declared', hmem, hname, -, heq⟩
      · cases heq
      · obtain ⟨rfl, rfl⟩ := Attr.setter.inj heq
        exact ⟨hname, state, hstate, hmem⟩
    · rintro field attrName ⟨declared, h⟩ hdeclares
      rcases hcases _ _ h with ⟨own, heq, -⟩ | ⟨field', declared', -, hname, hfree, -⟩
      · cases heq
      · rw [← hname] at hfree
        exact hfree (mem_existingCommandNames.mpr (.inl ⟨attrName, hdeclares⟩))

theorem generates_initSubclass {state : StateClass F}
    (hstate : resolveStateClass body.annotation fails bases = some state)
    (hmem : (field, declared) ∈ state.fields) :
    (setName field, .setter field declared) ∈ (initSubclass place body fails mro bases).attributes ∨
      setName field ∈ existingCommandNames body bases := by
  by_cases hfree : setName field ∈ existingCommandNames body bases
  · exact .inr hfree
  · refine .inl (Dict.mem_of_lookup ?_)
    rw [attributes_initSubclass, hstate]
    exact lookup_stamp_of_mem hmem hfree

/-- A new app keeps its handlers if and only if none of them stands where a setter goes. -/
theorem keepsHandlers_initSubclass :
    (initSubclass place body fails mro bases).KeepsHandlers ↔
      ∀ state field, resolveStateClass body.annotation fails bases = some state →
        field ∈ state.names → setName field ∉ existingCommandNames body bases →
        ∀ handler, (setName field, some handler) ∉ body.attributes := by
  constructor
  · intro hkeeps state field hstate hfield hfree handler hmem
    obtain ⟨⟨field, declared⟩, hdeclared, rfl⟩ := List.mem_map.mp hfield
    have hown := Dict.lookup_of_mem formed_initSubclass.nodup (hkeeps _ handler hmem)
    have hset : (setName field, .setter field declared) ∈
        (initSubclass place body fails mro bases).attributes ∨
          setName field ∈ existingCommandNames body bases :=
      generates_initSubclass hstate hdeclared
    rcases hset with hset | hset
    · have hsetter := Dict.lookup_of_mem formed_initSubclass.nodup hset
      cases Option.some.inj (hown.symm.trans hsetter)
    · exact hfree hset
  · intro hfree attrName handler hmem
    refine Dict.mem_of_lookup ?_
    have hwritten := Dict.lookup_of_mem (nodup_written body)
      (mem_written.mpr hmem : (attrName, (Attr.own (some handler) : Attr F M)) ∈ _)
    rw [attributes_initSubclass]
    cases hstate : resolveStateClass body.annotation fails bases with
    | none => exact hwritten
    | some state =>
      refine (lookup_stamp_of_kept fun field hfield heq => ?_).trans hwritten
      subst heq
      by_contra hnot
      exact hfree state field hstate hfield hnot handler hmem

/-! ### The claims of a class -/

theorem Class.mem_handWritten :
    (name, e) ∈ c.handWritten ↔ ∃ handler, (e.attrName, some handler) ∈ c.body.attributes ∧
      handler.name = name ∧ e = ⟨c.place, e.attrName, .own (some handler)⟩ := by
  unfold Class.handWritten
  simp only [List.mem_filterMap, Option.map_eq_some_iff, Prod.exists, Prod.mk.injEq]
  constructor
  · rintro ⟨attrName, own, hmem, handler, rfl, rfl, rfl⟩
    exact ⟨handler, hmem, rfl, rfl⟩
  · rintro ⟨handler, hmem, hname, heq⟩
    exact ⟨e.attrName, some handler, hmem, handler, rfl, hname, heq.symm⟩

theorem Class.mem_claims :
    (name, e) ∈ c.claims fields ↔
      (e.attrName, e.attr) ∈ c.attributes ∧ e.place = c.place ∧
        e.attr.command? fields = some name := by
  unfold Class.claims
  simp only [List.mem_filterMap, Option.map_eq_some_iff, Prod.exists, Prod.mk.injEq]
  constructor
  · rintro ⟨attrName, attr, hmem, command, hcommand, rfl, rfl⟩
    exact ⟨hmem, rfl, hcommand⟩
  · rintro ⟨hmem, hplace, hcommand⟩
    refine ⟨e.attrName, e.attr, hmem, name, hcommand, rfl, ?_⟩
    rw [← hplace]

theorem Class.Formed.claims_cases (h : c.Formed) (hclaim : (name, e) ∈ c.claims fields) :
    (name, e) ∈ c.handWritten ∨ ∃ field declared, field ∈ fields ∧ name = setName field ∧
      e.attrName = setName field ∧ e.attr = .setter field declared ∧ c.Generates field := by
  obtain ⟨hmem, hplace, hcommand⟩ := Class.mem_claims.mp hclaim
  cases hattr : e.attr with
  | own own =>
    rw [hattr] at hmem hcommand
    obtain ⟨handler, rfl, hname⟩ := Option.map_eq_some_iff.mp hcommand
    refine .inl (Class.mem_handWritten.mpr ⟨handler, h.events _ handler hmem, hname, ?_⟩)
    rw [← hplace, ← hattr]
  | setter field declared =>
    rw [hattr] at hmem hcommand
    obtain ⟨hname, -⟩ := h.setters _ field declared hmem
    change (if field ∈ fields then some (setName field) else none) = some name at hcommand
    split_ifs at hcommand with hfield
    exact .inr ⟨field, declared, hfield, (Option.some.inj hcommand).symm, hname, rfl,
      declared, hname ▸ hmem⟩

theorem Class.KeepsHandlers.mem_claims (h : c.KeepsHandlers) (hmem : (name, e) ∈ c.handWritten) :
    (name, e) ∈ c.claims fields := by
  obtain ⟨handler, hmem, hname, heq⟩ := Class.mem_handWritten.mp hmem
  rw [Class.mem_claims, heq]
  exact ⟨h _ handler hmem, rfl, congrArg some hname⟩

theorem Class.mem_claims_of_setter (hmem : (setName field, .setter field declared) ∈ c.attributes)
    (hfield : field ∈ fields) :
    (setName field, ⟨c.place, setName field, .setter field declared⟩) ∈ c.claims fields :=
  Class.mem_claims.mpr ⟨hmem, rfl, if_pos hfield⟩

end Class

/-! ### An app and its bases -/

def Distinct (bodies : List (Body F M)) : Prop :=
  ∀ body ∈ bodies, ∀ body' ∈ bodies, ∀ name attrName attrName',
    body.Declares name attrName → body'.Declares name attrName' → attrName = attrName'

/-- The commands of an app, over the classes of its `__mro__`, are as they should be. -/
structure Resolves (classes : List (Class F M)) (commands : List (String × Entry F M)) : Prop where
  /-- A name that is declared by hand is bound to the handler of the closest class. -/
  handWritten : ∀ name e, (classes.flatMap Class.handWritten).lookup name = some e →
    commands.lookup name = some e
  /-- Every other field of the state has its setter, with what the state declares of it. -/
  generated : ∀ state field declared, appStateOf classes = some state →
    (field, declared) ∈ state.fields →
    (∀ c ∈ classes, ∀ attrName, ¬ c.body.Declares (setName field) attrName) →
    ∃ e, commands.lookup (setName field) = some e ∧ e.attr = .setter field declared
  /-- A name is bound once. -/
  once : (commands.map Prod.fst).Nodup
  /-- There is no setter of a field that the state does not have. -/
  dropped : ∀ name e field declared, (name, e) ∈ commands → e.attr = .setter field declared →
    field ∈ stateFieldNames classes

section Lineage

variable {classes : List (Class F M)} {c : Class F M} {fields : List String} {name : String}
  {e : Entry F M} {commands : List (String × Entry F M)}

theorem Class.declares_of_mem_handWritten (h : (name, e) ∈ c.handWritten) :
    c.body.Declares name e.attrName := by
  obtain ⟨handler, hmem, hname, -⟩ := Class.mem_handWritten.mp h
  exact ⟨handler, hmem, hname⟩

theorem Class.exists_mem_handWritten {attrName : String} (h : c.body.Declares name attrName) :
    ∃ e, (name, e) ∈ c.handWritten ∧ e.attrName = attrName := by
  obtain ⟨handler, hmem, hname⟩ := h
  exact ⟨⟨c.place, attrName, .own (some handler)⟩,
    Class.mem_handWritten.mpr ⟨handler, hmem, hname, rfl⟩, rfl⟩

theorem Distinct.handWritten_unique (h : Distinct (classes.map Class.body)) (hc : c ∈ classes)
    {e e' : Entry F M} (he : (name, e) ∈ c.handWritten) (he' : (name, e') ∈ c.handWritten) :
    e' = e := by
  have hattr : e'.attrName = e.attrName :=
    h _ (List.mem_map_of_mem hc) _ (List.mem_map_of_mem hc) name _ _
      (Class.declares_of_mem_handWritten he') (Class.declares_of_mem_handWritten he)
  obtain ⟨handler, hmem, -, heq⟩ := Class.mem_handWritten.mp he
  obtain ⟨handler', hmem', -, heq'⟩ := Class.mem_handWritten.mp he'
  rw [hattr] at hmem' heq'
  have hlookup := Dict.lookup_of_mem c.body.nodup hmem
  have hlookup' := Dict.lookup_of_mem c.body.nodup hmem'
  obtain rfl := Option.some.inj (Option.some.inj (hlookup.symm.trans hlookup'))
  rw [heq, heq']

theorem Distinct.lookup_handWritten (h : Distinct (classes.map Class.body)) (hc : c ∈ classes)
    (he : (name, e) ∈ c.handWritten) : c.handWritten.lookup name = some e :=
  Dict.lookup_of_unique he fun _ he' => h.handWritten_unique hc he he'

theorem Distinct.closest (h : Distinct (classes.map Class.body))
    (he : (classes.flatMap Class.handWritten).lookup name = some e) :
    ∃ before c after, classes = before ++ c :: after ∧ (name, e) ∈ c.handWritten ∧
      ∀ b ∈ before, ∀ attrName, ¬ b.body.Declares name attrName := by
  rw [Dict.lookup_flatMap, List.findSome?_eq_some_iff] at he
  obtain ⟨before, c, after, rfl, hlookup, hbefore⟩ := he
  refine ⟨before, c, after, rfl, Dict.mem_of_lookup hlookup, fun b hb attrName hdeclares => ?_⟩
  obtain ⟨e', he', -⟩ := Class.exists_mem_handWritten hdeclares
  have hnone := hbefore b hb
  rw [h.lookup_handWritten (List.mem_append_left _ hb) he'] at hnone
  cases hnone

/-- What the order of the classes has to be for the handlers to win: a field's handlers are called
as its setter, and one comes before every setter of the field. -/
structure Ordered (fields : List String) (classes : List (Class F M)) : Prop where
  named : ∀ field ∈ fields, (∃ c ∈ classes, c.Generates field) →
    ∀ c ∈ classes, ∀ attrName, c.body.Declares (setName field) attrName →
      attrName = setName field
  first : ∀ field ∈ fields, ∀ before c after, classes = before ++ c :: after →
    c.Generates field → (∃ b ∈ classes, ∃ attrName, b.body.Declares (setName field) attrName) →
    ∃ b ∈ before, ∃ attrName, b.body.Declares (setName field) attrName

section Ordered

variable (hformed : ∀ c ∈ classes, c.Formed) (hkeeps : ∀ c ∈ classes, c.KeepsHandlers)
  (hdistinct : Distinct (classes.map Class.body))

include hformed hdistinct in
theorem Ordered.exists_commands (h : Ordered fields classes) :
    ∃ commands, bindCommands [] (classes.flatMap fun c => c.claims fields) = .ok commands := by
  rw [bindCommands_eq_ok]
  intro name e he first hfirst
  rw [List.nil_append] at hfirst
  obtain ⟨c, hc, he⟩ := List.mem_flatMap.mp he
  obtain ⟨c', hc', hfirst⟩ := List.mem_flatMap.mp (Dict.mem_of_lookup hfirst)
  have hhand {a b : Class F M} (ha : a ∈ classes) (hb : b ∈ classes) {e : Entry F M}
      {field : String} (hfield : field ∈ fields) (he : (setName field, e) ∈ a.handWritten)
      (hgenerates : b.Generates field) : e.attrName = setName field :=
    h.named field hfield ⟨b, hb, hgenerates⟩ a ha _ (Class.declares_of_mem_handWritten he)
  rcases (hformed c' hc').claims_cases hfirst with
    hfirst | ⟨field, declared, hfield, rfl, hname, -, hgenerates⟩
  · rcases (hformed c hc).claims_cases he with
      he | ⟨field, declared, hfield, rfl, hname, -, hgenerates⟩
    · exact hdistinct _ (List.mem_map_of_mem hc') _ (List.mem_map_of_mem hc) name _ _
        (Class.declares_of_mem_handWritten hfirst) (Class.declares_of_mem_handWritten he)
    · rw [hname]
      exact hhand hc' hc hfield hfirst hgenerates
  · rcases (hformed c hc).claims_cases he with
      he | ⟨field', declared', -, heq, hname', -, -⟩
    · rw [hname]
      exact (hhand hc hc' hfield he hgenerates).symm
    · rw [hname, hname', setName_injective heq]

include hformed hkeeps hdistinct in
/-- A handler that comes first is bound. -/
theorem Ordered.lookup_claims (h : Ordered fields classes)
    (he : (classes.flatMap Class.handWritten).lookup name = some e) :
    (classes.flatMap fun c => c.claims fields).lookup name = some e := by
  obtain ⟨before, c, after, rfl, hmem, hbefore⟩ := hdistinct.closest he
  have hc : c ∈ before ++ c :: after := List.mem_append_right _ List.mem_cons_self
  rw [Dict.lookup_flatMap, List.findSome?_eq_some_iff]
  refine ⟨before, c, after, rfl, ?_, fun b hb => ?_⟩
  · refine Dict.lookup_of_unique ((hkeeps c hc).mem_claims hmem) fun e' he' => ?_
    rcases (hformed c hc).claims_cases he' with he' | ⟨field, declared, -, rfl, -, -, hgenerates⟩
    · exact hdistinct.handWritten_unique hc hmem he'
    · exact absurd (Class.declares_of_mem_handWritten hmem)
        ((hformed c hc).apart field _ hgenerates)
  · -- A class before it declares the name neither by hand nor for a field.
    have hbmem : b ∈ before ++ c :: after := List.mem_append_left _ hb
    rw [Option.eq_none_iff_forall_ne_some]
    intro e' he'
    rcases (hformed b hbmem).claims_cases (Dict.mem_of_lookup he') with
      he' | ⟨field, declared, hfield, rfl, -, -, hgenerates⟩
    · exact hbefore b hb _ (Class.declares_of_mem_handWritten he')
    · obtain ⟨before₁, before₂, rfl⟩ := List.append_of_mem hb
      obtain ⟨b', hb', attrName, hdeclares⟩ := h.first field hfield before₁ b
        (before₂ ++ c :: after) (by rw [List.append_assoc, List.cons_append]) hgenerates
        ⟨c, hc, _, Class.declares_of_mem_handWritten hmem⟩
      exact hbefore b' (List.mem_append_left _ hb') attrName hdeclares

end Ordered

theorem lookup_claims_of_field (hformed : ∀ c ∈ classes, c.Formed)
    (hstamped : ∀ c ∈ classes, ∀ state field declared, c.appState = some state →
      (field, declared) ∈ state.fields →
      (setName field, .setter field declared) ∈ c.attributes ∨
        ∃ b ∈ classes, ∃ attrName, b.body.Declares (setName field) attrName)
    {state : StateClass F} {field : String} {declared : F}
    (hstate : appStateOf classes = some state)
    (hmem : (field, declared) ∈ state.fields)
    (hnone : ∀ c ∈ classes, ∀ attrName, ¬ c.body.Declares (setName field) attrName) :
    ∃ e, (classes.flatMap fun c => c.claims (stateFieldNames classes)).lookup (setName field) =
      some e ∧ e.attr = .setter field declared := by
  have hfield : field ∈ stateFieldNames classes := by
    unfold stateFieldNames
    rw [hstate]
    exact List.mem_map_of_mem hmem
  generalize stateFieldNames classes = fields at hfield
  obtain ⟨before, c, after, rfl, hc, hbefore⟩ := List.findSome?_eq_some_iff.mp hstate
  have hcmem : c ∈ before ++ c :: after := List.mem_append_right _ List.mem_cons_self
  have hsetter : (setName field, Attr.setter field declared) ∈ c.attributes := by
    rcases hstamped c hcmem state field declared hc hmem with hset | ⟨b, hb, attrName, hdeclares⟩
    · exact hset
    · exact absurd hdeclares (hnone b hb attrName)
  refine ⟨⟨c.place, setName field, .setter field declared⟩, ?_, rfl⟩
  rw [Dict.lookup_flatMap, List.findSome?_eq_some_iff]
  refine ⟨before, c, after, rfl, ?_, fun b hb => ?_⟩
  · refine Dict.lookup_of_unique (Class.mem_claims_of_setter hsetter hfield) fun e he => ?_
    rcases (hformed c hcmem).claims_cases he with he | ⟨field', declared', -, heq, hname, hattr, -⟩
    · exact absurd (Class.declares_of_mem_handWritten he) (hnone c hcmem _)
    · obtain ⟨hattribute, hplace, -⟩ := Class.mem_claims.mp he
      rw [hname, ← heq] at hattribute
      have hone := Dict.lookup_of_mem (hformed c hcmem).nodup hattribute
      have htwo := Dict.lookup_of_mem (hformed c hcmem).nodup hsetter
      obtain ⟨place, attrName, attr⟩ := e
      obtain rfl := Option.some.inj (hone.symm.trans htwo)
      obtain rfl : attrName = setName field := hname.trans heq.symm
      obtain rfl : place = c.place := hplace
      rfl
  · -- A class before it has no state of its own, and so no setters.
    have hbmem : b ∈ before ++ c :: after := List.mem_append_left _ hb
    rw [Option.eq_none_iff_forall_ne_some]
    intro e he
    rcases (hformed b hbmem).claims_cases (Dict.mem_of_lookup he) with
      he | ⟨field', declared', -, -, -, -, declared'', hgenerates⟩
    · exact hnone b hbmem _ (Class.declares_of_mem_handWritten he)
    · obtain ⟨-, state', hstate', -⟩ := (hformed b hbmem).setters _ _ _ hgenerates
      rw [hbefore b hb] at hstate'
      cases hstate'

/-! #### From what is bound to the order of the classes -/

section Resolves

variable {bases : List (Class F M)} (hformed : ∀ c ∈ classes, c.Formed)

include hformed in
theorem Ordered.resolves (h : Ordered (stateFieldNames classes) classes)
    (hkeeps : ∀ c ∈ classes, c.KeepsHandlers) (hdistinct : Distinct (classes.map Class.body))
    (hstamped : ∀ c ∈ classes, ∀ state field declared, c.appState = some state →
      (field, declared) ∈ state.fields →
      (setName field, .setter field declared) ∈ c.attributes ∨
        ∃ b ∈ classes, ∃ attrName, b.body.Declares (setName field) attrName) :
    ∃ commands, bindCommands [] (classes.flatMap fun c => c.claims (stateFieldNames classes)) =
      .ok commands ∧ Resolves classes commands := by
  obtain ⟨commands, hok⟩ := h.exists_commands hformed hdistinct
  have hlookup (name : String) := lookup_bindCommands hok name
  simp only [List.nil_append] at hlookup
  refine ⟨commands, hok, ?_, ?_, nodup_bindCommands hok List.nodup_nil, ?_⟩
  · intro name e he
    rw [hlookup]
    exact h.lookup_claims hformed hkeeps hdistinct he
  · intro state field declared hstate hmem hnone
    rw [hlookup]
    exact lookup_claims_of_field hformed hstamped hstate hmem hnone
  · intro name e field declared hmem hattr
    have hbound := Dict.lookup_of_mem (nodup_bindCommands hok List.nodup_nil) hmem
    rw [hlookup] at hbound
    obtain ⟨c, hc, hclaim⟩ := List.mem_flatMap.mp (Dict.mem_of_lookup hbound)
    obtain ⟨-, -, hcommand⟩ := Class.mem_claims.mp hclaim
    rw [hattr] at hcommand
    change (if field ∈ stateFieldNames classes then some (setName field) else none) = _ at hcommand
    split_ifs at hcommand with hfield
    exact hfield

theorem Resolves.keepsHandlers (h : Resolves (c :: bases) commands)
    (hplace : ∀ base ∈ bases, base.place ≠ c.place)
    (hdistinct : Distinct ((c :: bases).map Class.body))
    (hok : bindCommands [] ((c :: bases).flatMap fun c => c.claims fields) = .ok commands) :
    c.KeepsHandlers := by
  intro attrName handler hmem
  have hhand : (handler.name, ⟨c.place, attrName, .own (some handler)⟩) ∈ c.handWritten :=
    Class.mem_handWritten.mpr ⟨handler, hmem, rfl, rfl⟩
  have hbound := h.handWritten handler.name ⟨c.place, attrName, .own (some handler)⟩ (by
    rw [Dict.lookup_flatMap, List.findSome?_cons,
      hdistinct.lookup_handWritten List.mem_cons_self hhand])
  rw [lookup_bindCommands hok, List.nil_append] at hbound
  obtain ⟨b, hb, hclaim⟩ := List.mem_flatMap.mp (Dict.mem_of_lookup hbound)
  obtain ⟨hattribute, hsame, -⟩ := Class.mem_claims.mp hclaim
  rcases List.mem_cons.mp hb with rfl | hb
  · exact hattribute
  · exact absurd hsame.symm (hplace b hb)

include hformed in
theorem Resolves.ordered (h : Resolves classes commands)
    (hkeeps : ∀ c ∈ classes, c.KeepsHandlers) (hdistinct : Distinct (classes.map Class.body))
    (hok : bindCommands [] (classes.flatMap fun c => c.claims fields) = .ok commands) :
    Ordered fields classes := by
  have hwalk := (bindCommands_eq_ok [] _).mp ⟨commands, hok⟩
  have hlookup (name : String) := lookup_bindCommands hok name
  simp only [List.nil_append] at hwalk hlookup
  constructor
  · rintro field hfield ⟨b, hb, declared, hset⟩ c hc attrName hdeclares
    obtain ⟨e, he, rfl⟩ := Class.exists_mem_handWritten hdeclares
    have hsetter : (setName field, ⟨b.place, setName field, .setter field declared⟩) ∈
        classes.flatMap fun c => c.claims fields :=
      List.mem_flatMap.mpr ⟨b, hb, Class.mem_claims_of_setter hset hfield⟩
    have hhand : (setName field, e) ∈ classes.flatMap fun c => c.claims fields :=
      List.mem_flatMap.mpr ⟨c, hc, (hkeeps c hc).mem_claims he⟩
    -- Both are called as the first claim of the name.
    cases hfirst : (classes.flatMap fun c => c.claims fields).lookup (setName field) with
    | none =>
      have hne := List.lookup_eq_none_iff.mp hfirst _ hhand
      simp at hne
    | some first =>
      have hone := hwalk _ _ hhand first hfirst
      have htwo := hwalk _ _ hsetter first hfirst
      exact hone.symm.trans htwo
  · rintro field hfield before c after rfl hgenerates ⟨b, hb, attrName, hdeclares⟩
    by_contra hnone
    have hbefore : ∀ b ∈ before, ∀ attrName, ¬ b.body.Declares (setName field) attrName :=
      fun b hb attrName hdeclares => hnone ⟨b, hb, attrName, hdeclares⟩
    have hcmem : c ∈ before ++ c :: after := List.mem_append_right _ List.mem_cons_self
    obtain ⟨e₀, he₀, -⟩ := Class.exists_mem_handWritten hdeclares
    -- Some handler is bound, by what is claimed by hand.
    cases hhand : ((before ++ c :: after).flatMap Class.handWritten).lookup (setName field) with
    | none =>
      have hne := List.lookup_eq_none_iff.mp hhand _ (List.mem_flatMap.mpr ⟨b, hb, he₀⟩)
      simp at hne
    | some e =>
      have hbound := h.handWritten _ e hhand
      obtain ⟨d, hd, hed⟩ := List.mem_flatMap.mp (Dict.mem_of_lookup hhand)
      obtain ⟨handler, -, -, heq⟩ := Class.mem_handWritten.mp hed
      rw [hlookup, Dict.lookup_flatMap, List.findSome?_eq_some_iff] at hbound
      obtain ⟨front, x, back, hsplit, hx, hfront⟩ := hbound
      have hxmem : x ∈ before ++ c :: after := by
        rw [hsplit]
        exact List.mem_append_right _ List.mem_cons_self
      -- The class that it is bound from declares it by hand, so it is not among the first ones.
      have hxdeclares : x.body.Declares (setName field) e.attrName := by
        rcases (hformed x hxmem).claims_cases (Dict.mem_of_lookup hx) with
          hhand | ⟨field', declared', -, -, -, hattr, -⟩
        · exact Class.declares_of_mem_handWritten hhand
        · rw [heq] at hattr
          cases hattr
      have hxc : x ≠ c := by
        rintro rfl
        exact (hformed x hxmem).apart field _ hgenerates hxdeclares
      have hcfront : c ∉ front := by
        intro hmem
        obtain ⟨declared, hset⟩ := hgenerates
        have hclaim := Class.mem_claims_of_setter hset hfield
        have hne := List.lookup_eq_none_iff.mp (hfront c hmem) _ hclaim
        simp at hne
      rcases List.append_eq_append_iff.mp hsplit with ⟨rest, hrest, hafter⟩ | ⟨rest, hrest, hback⟩
      · cases rest with
        | nil => exact hxc (List.cons.inj hafter).1.symm
        | cons first rest =>
          obtain ⟨rfl, -⟩ := List.cons.inj hafter
          exact hcfront (hrest ▸ List.mem_append_right _ List.mem_cons_self)
      · cases rest with
        | nil => exact hxc (List.cons.inj hback).1
        | cons first rest =>
          obtain ⟨rfl, -⟩ := List.cons.inj hback
          exact hbefore x (hrest ▸ List.mem_append_right _ List.mem_cons_self) _ hxdeclares

end Resolves

end Lineage

/-! ### Class statements -/

def fieldNames (body : Body F M) (fails : Bool) (bases : List (Class F M)) : List String :=
  ((resolveStateClass body.annotation fails bases).or (appStateOf bases)).elim [] StateClass.names

structure KeepsApp (body : Body F M) (fails : Bool) (bases : List (Class F M)) : Prop where
  /-- A method that is called like the setter of a field of the state that the app names is a
  handler of that command, or some other handler is. -/
  kept : ∀ state field, resolveStateClass body.annotation fails bases = some state →
    field ∈ state.names → setName field ∉ existingCommandNames body bases →
    ∀ handler, (setName field, some handler) ∉ body.attributes
  /-- The handlers of a command that a base has a setter for are called as the setter is. -/
  named : ∀ field ∈ fieldNames body fails bases, (∃ base ∈ bases, base.Generates field) →
    ∀ b ∈ body :: bases.map Class.body, ∀ attrName, b.Declares (setName field) attrName →
      attrName = setName field
  /-- One of them, if there are any, comes before each base that has a setter. -/
  first : ∀ field ∈ fieldNames body fails bases, ∀ before base after,
    bases = before ++ base :: after → base.Generates field →
    (∃ b ∈ body :: bases.map Class.body, ∃ attrName, b.Declares (setName field) attrName) →
    ∃ b ∈ body :: before.map Class.body, ∃ attrName, b.Declares (setName field) attrName

section App

variable {body : Body F M} {bases : List (Class F M)} {place : ℕ} {fails : Bool} {mro : List ℕ}

theorem stateFieldNames_initSubclass :
    stateFieldNames (initSubclass place body fails mro bases :: bases) =
      fieldNames body fails bases := by
  have hstate : (initSubclass place body fails mro bases).appState =
      resolveStateClass body.annotation fails bases := rfl
  unfold stateFieldNames fieldNames appStateOf
  rw [List.findSome?_cons, hstate]
  cases resolveStateClass body.annotation fails bases <;> rfl

theorem contract_initSubclass :
    (initSubclass place body fails mro bases).contract =
      some (bindCommands []
        ((initSubclass place body fails mro bases :: bases).flatMap fun c =>
          c.claims (stateFieldNames (initSubclass place body fails mro bases :: bases)))) := rfl

theorem not_declares_of_generates (hkeeps : ∀ base ∈ bases, base.KeepsHandlers) {field : String}
    (h : (initSubclass place body fails mro bases).Generates field) :
    ∀ b ∈ body :: bases.map Class.body, ∀ attrName, ¬ b.Declares (setName field) attrName := by
  intro b hb attrName hdeclares
  rcases List.mem_cons.mp hb with rfl | hb
  · exact formed_initSubclass.apart field attrName h hdeclares
  · obtain ⟨base, hbase, rfl⟩ := List.mem_map.mp hb
    obtain ⟨declared, hset⟩ := h
    have hlookup := Dict.lookup_of_mem formed_initSubclass.nodup hset
    obtain ⟨handler, hmem, hname⟩ := hdeclares
    have hexists : setName field ∈ existingCommandNames body bases :=
      mem_existingCommandNames.mpr
        (.inr ⟨base, hbase, attrName, handler, hkeeps base hbase attrName handler hmem, hname⟩)
    rw [attributes_initSubclass] at hlookup
    have hbody (attr : Attr F M)
        (hmem : (setName field, attr) ∈ body.attributes.map fun e => (e.1, .own e.2)) :
        attr ≠ .setter field declared := by
      rintro rfl
      obtain ⟨e, -, heq⟩ := List.mem_map.mp hmem
      cases (Prod.mk.inj heq).2
    cases hstate : resolveStateClass body.annotation fails bases with
    | none =>
      rw [hstate] at hlookup
      exact hbody _ (Dict.mem_of_lookup hlookup) rfl
    | some state =>
      rw [hstate] at hlookup
      rcases lookup_stamp_cases hlookup with hold | ⟨field', declared', -, hsame, hfree, -⟩
      · exact hbody _ (Dict.mem_of_lookup hold) rfl
      · exact hfree (hsame ▸ hexists)

theorem keepsApp_iff (hkeeps : ∀ base ∈ bases, base.KeepsHandlers) :
    KeepsApp body fails bases ↔ (initSubclass place body fails mro bases).KeepsHandlers ∧
      Ordered (fieldNames body fails bases) (initSubclass place body fails mro bases :: bases) := by
  have hbodies : (initSubclass place body fails mro bases :: bases).map Class.body =
      body :: bases.map Class.body := rfl
  -- What classes declare is what their bodies do.
  have hdeclares (l : List (Class F M)) (field : String) :
      (∃ b ∈ l, ∃ attrName, b.body.Declares (setName field) attrName) ↔
        ∃ b ∈ l.map Class.body, ∃ attrName, b.Declares (setName field) attrName := by
    constructor
    · rintro ⟨b, hb, hdeclares⟩
      exact ⟨b.body, List.mem_map_of_mem hb, hdeclares⟩
    · rintro ⟨b, hb, hdeclares⟩
      obtain ⟨c, hc, rfl⟩ := List.mem_map.mp hb
      exact ⟨c, hc, hdeclares⟩
  rw [keepsHandlers_initSubclass]
  constructor
  · rintro ⟨hkept, hnamed, hfirst⟩
    refine ⟨hkept, fun field hfield hgenerates c hc attrName hc' => ?_, ?_⟩
    · obtain ⟨base, hbase, hgenerates⟩ := hgenerates
      have hmem : c.body ∈ body :: bases.map Class.body := hbodies ▸ List.mem_map_of_mem hc
      rcases List.mem_cons.mp hbase with rfl | hbase
      · exact absurd hc' (not_declares_of_generates hkeeps hgenerates _ hmem attrName)
      · exact hnamed field hfield ⟨base, hbase, hgenerates⟩ c.body hmem attrName hc'
    · intro field hfield before c after heq hgenerates hsome
      rw [hdeclares, hbodies] at hsome
      cases before with
      | nil =>
        obtain ⟨rfl, -⟩ := List.cons.inj heq
        obtain ⟨b, hb, attrName, hb'⟩ := hsome
        exact absurd hb' (not_declares_of_generates hkeeps hgenerates b hb attrName)
      | cons own before =>
        obtain ⟨rfl, hbases⟩ := List.cons.inj heq
        rw [hdeclares]
        exact hfirst field hfield before c after hbases hgenerates hsome
  · rintro ⟨hkept, hnamed, hfirst⟩
    refine ⟨hkept, fun field hfield ⟨base, hbase, hgenerates⟩ b hb attrName hb' => ?_, ?_⟩
    · rw [← hbodies] at hb
      obtain ⟨c, hc, rfl⟩ := List.mem_map.mp hb
      exact hnamed field hfield ⟨base, List.mem_cons_of_mem _ hbase, hgenerates⟩ c hc attrName hb'
    · intro field hfield before base after heq hgenerates hsome
      rw [← hbodies, ← hdeclares] at hsome
      have hbefore := hfirst field hfield (initSubclass place body fails mro bases :: before) base
        after (by rw [heq]; rfl) hgenerates hsome
      exact (hdeclares _ field).mp hbefore

theorem resolves_iff (hformed : ∀ base ∈ bases, base.Formed)
    (hkeeps : ∀ base ∈ bases, base.KeepsHandlers) (hplace : ∀ base ∈ bases, base.place ≠ place)
    (hdistinct : Distinct (body :: bases.map Class.body))
    (hstamped : ∀ c ∈ initSubclass place body fails mro bases :: bases, ∀ state field declared,
      c.appState = some state → (field, declared) ∈ state.fields →
      (setName field, .setter field declared) ∈ c.attributes ∨
        ∃ b ∈ initSubclass place body fails mro bases :: bases, ∃ attrName,
          b.body.Declares (setName field) attrName) :
    (∃ commands, (initSubclass place body fails mro bases).contract = some (.ok commands) ∧
        Resolves (initSubclass place body fails mro bases :: bases) commands) ↔
      KeepsApp body fails bases := by
  have hfields : stateFieldNames (initSubclass place body fails mro bases :: bases) =
      fieldNames body fails bases := stateFieldNames_initSubclass
  have hallFormed : ∀ c ∈ initSubclass place body fails mro bases :: bases, c.Formed := by
    intro c hc
    rcases List.mem_cons.mp hc with rfl | hc
    · exact formed_initSubclass
    · exact hformed c hc
  have hallKeeps (hnew : (initSubclass place body fails mro bases).KeepsHandlers) :
      ∀ c ∈ initSubclass place body fails mro bases :: bases, c.KeepsHandlers := by
    intro c hc
    rcases List.mem_cons.mp hc with rfl | hc
    · exact hnew
    · exact hkeeps c hc
  have hiff : KeepsApp body fails bases ↔
      (initSubclass place body fails mro bases).KeepsHandlers ∧
        Ordered (fieldNames body fails bases)
          (initSubclass place body fails mro bases :: bases) := keepsApp_iff hkeeps
  rw [hiff, ← hfields, contract_initSubclass]
  constructor
  · rintro ⟨commands, hok, hresolves⟩
    have hok := Option.some.inj hok
    have hnew : (initSubclass place body fails mro bases).KeepsHandlers :=
      hresolves.keepsHandlers hplace hdistinct hok
    exact ⟨hnew, hresolves.ordered hallFormed (hallKeeps hnew) hdistinct hok⟩
  · rintro ⟨hnew, hordered⟩
    obtain ⟨commands, hok, hresolves⟩ :=
      hordered.resolves hallFormed (hallKeeps hnew) hdistinct hstamped
    exact ⟨commands, congrArg some hok, hresolves⟩

end App

/-! ### Hierarchies -/

/-- No two hand-written handlers of different method names, in the `__mro__` of an app, share a wire
name. -/
def DistinctAt (classes : List (Class F M)) : Statement F M → Prop
  | .mixin _ _ => True
  | .app body _ mro => ∀ bases, basesAt classes mro = some bases →
      Distinct (body :: bases.map Class.body)

/-- Defining an app raises nothing, and its commands are as they should be. -/
def ResolveAt (classes : List (Class F M)) : Statement F M → Prop
  | .mixin _ _ => True
  | .app body fails mro => ∀ bases, basesAt classes mro = some bases →
      ∃ commands, (initSubclass classes.length body fails mro bases).contract =
        some (.ok commands) ∧
      Resolves (initSubclass classes.length body fails mro bases :: bases) commands

def KeepsAt (classes : List (Class F M)) : Statement F M → Prop
  | .mixin _ _ => True
  | .app body fails mro => ∀ bases, basesAt classes mro = some bases → KeepsApp body fails bases

/-- What holds of the classes of every hierarchy. -/
structure Lawful (classes : List (Class F M)) : Prop where
  places : ∀ (i : ℕ) (c : Class F M), classes[i]? = some c → c.place = i
  formed : ∀ c ∈ classes, c.Formed
  /-- A field of a state has its setter, or its command is declared by hand in the `__mro__`. -/
  stamped : ∀ c ∈ classes, ∀ state field declared, c.appState = some state →
    (field, declared) ∈ state.fields →
    (setName field, .setter field declared) ∈ c.attributes ∨
      ∃ b, (b = c ∨ ∃ place ∈ c.mro, classes[place]? = some b) ∧
        ∃ attrName, b.body.Declares (setName field) attrName

section Hierarchy

variable {classes bases : List (Class F M)} {mro : List ℕ}

/-- The bases of a class are defined, and so are their bases, which are among them. -/
theorem basesAt_eq_some (h : basesAt classes mro = some bases) :
    mro.mapM (fun place => classes[place]?) = some bases ∧
      ∀ base ∈ bases, ∀ place ∈ base.mro, place ∈ mro := by
  obtain ⟨bases', hbases, h⟩ := Option.bind_eq_some_iff.mp h
  split_ifs at h with hall
  cases h
  refine ⟨hbases, fun base hbase place hplace => ?_⟩
  have hbase := List.all_eq_true.mp hall base hbase
  rw [Bool.and_eq_true] at hbase
  exact List.contains_iff_mem.mp (List.all_eq_true.mp hbase.1 place hplace)

theorem mem_of_basesAt (h : basesAt classes mro = some bases) {base : Class F M}
    (hbase : base ∈ bases) : base ∈ classes := by
  obtain ⟨place, -, hplace⟩ := exists_of_mem_mapM (basesAt_eq_some h).1 hbase
  exact List.mem_of_getElem? hplace

theorem Lawful.stamped_of_basesAt (h : Lawful classes) (hbases : basesAt classes mro = some bases)
    {base : Class F M} (hbase : base ∈ bases) {state : StateClass F} {field : String}
    {declared : F} (hstate : base.appState = some state) (hmem : (field, declared) ∈ state.fields) :
    (setName field, .setter field declared) ∈ base.attributes ∨
      ∃ b ∈ bases, ∃ attrName, b.body.Declares (setName field) attrName := by
  obtain ⟨hmapM, hclosed⟩ := basesAt_eq_some hbases
  have hold := h.stamped base (mem_of_basesAt hbases hbase) state field declared hstate hmem
  refine hold.imp_right ?_
  rintro ⟨b, rfl | ⟨place, hplace, hget⟩, hdeclares⟩
  · exact ⟨b, hbase, hdeclares⟩
  · obtain ⟨b', hb', hget'⟩ := exists_of_mapM_of_mem hmapM (hclosed base hbase place hplace)
    obtain rfl := Option.some.inj (hget.symm.trans hget')
    exact ⟨b, hb', hdeclares⟩

theorem Lawful.stamped_initSubclass (h : Lawful classes)
    (hbases : basesAt classes mro = some bases) {body : Body F M} {fails : Bool} {place : ℕ} :
    ∀ c ∈ initSubclass place body fails mro bases :: bases, ∀ state field declared,
      c.appState = some state → (field, declared) ∈ state.fields →
      (setName field, .setter field declared) ∈ c.attributes ∨
        ∃ b ∈ initSubclass place body fails mro bases :: bases, ∃ attrName,
          b.body.Declares (setName field) attrName := by
  intro c hc state field declared hstate hmem
  rcases List.mem_cons.mp hc with rfl | hc
  · refine (generates_initSubclass hstate hmem).imp_right fun hexists => ?_
    rcases mem_existingCommandNames.mp hexists with
      ⟨attrName, hdeclares⟩ | ⟨base, hbase, attrName, handler, hmem, hname⟩
    · exact ⟨_, List.mem_cons_self, attrName, hdeclares⟩
    · have hbody := (h.formed base (mem_of_basesAt hbases hbase)).events attrName handler hmem
      exact ⟨base, List.mem_cons_of_mem _ hbase, attrName, handler, hbody, hname⟩
  · refine (h.stamped_of_basesAt hbases hc hstate hmem).imp_right ?_
    rintro ⟨b, hb, hdeclares⟩
    exact ⟨b, List.mem_cons_of_mem _ hb, hdeclares⟩

theorem Lawful.concat (h : Lawful classes) {c : Class F M} (hplace : c.place = classes.length)
    (hformed : c.Formed)
    (hstamped : ∀ state field declared, c.appState = some state →
      (field, declared) ∈ state.fields →
      (setName field, .setter field declared) ∈ c.attributes ∨
        ∃ b, (b = c ∨ ∃ place ∈ c.mro, classes[place]? = some b) ∧
          ∃ attrName, b.body.Declares (setName field) attrName) :
    Lawful (classes ++ [c]) where
  places i c' hc' := by
    rw [List.getElem?_append] at hc'
    split_ifs at hc' with hlt
    · exact h.places i c' hc'
    · have hi := (List.getElem?_eq_some_iff.mp hc').1
      rw [List.length_singleton] at hi
      rw [List.mem_singleton.mp (List.mem_of_getElem? hc'), hplace]
      omega
  formed c' hc' := by
    rcases List.mem_append.mp hc' with hc' | hc'
    · exact h.formed c' hc'
    · rw [List.mem_singleton.mp hc']
      exact hformed
  stamped c' hc' state field declared hstate hmem := by
    have hgrow (place : ℕ) (b : Class F M) (hb : classes[place]? = some b) :
        (classes ++ [c])[place]? = some b :=
      (List.getElem?_append_left (List.getElem?_eq_some_iff.mp hb).1).trans hb
    have hold : (setName field, .setter field declared) ∈ c'.attributes ∨
        ∃ b, (b = c' ∨ ∃ place ∈ c'.mro, classes[place]? = some b) ∧
          ∃ attrName, b.body.Declares (setName field) attrName := by
      rcases List.mem_append.mp hc' with hc' | hc'
      · exact h.stamped c' hc' state field declared hstate hmem
      · rw [List.mem_singleton.mp hc'] at hstate ⊢
        exact hstamped state field declared hstate hmem
    refine hold.imp_right ?_
    rintro ⟨b, hb, hdeclares⟩
    refine ⟨b, hb.imp_right ?_, hdeclares⟩
    rintro ⟨place, hplace, hget⟩
    exact ⟨place, hplace, hgrow place b hget⟩

theorem lawful_isInvariant : (hierarchy (F := F) (M := M)).IsInvariant Lawful where
  init := by
    refine ⟨fun i c hc => ?_, fun c hc => ?_, fun c hc => ?_⟩
    · cases hc
    · cases hc
    · cases hc
  step classes statement classes' h hstep := by
    obtain ⟨c, hmake, rfl⟩ := Option.map_eq_some_iff.mp hstep
    rcases statement with ⟨body, mro⟩ | ⟨body, fails, mro⟩
    · obtain ⟨bases, -, rfl⟩ := Option.map_eq_some_iff.mp hmake
      refine h.concat rfl (formed_written rfl) fun state field declared hstate => ?_
      cases hstate
    · obtain ⟨bases, hbases, rfl⟩ := Option.map_eq_some_iff.mp hmake
      refine h.concat rfl formed_initSubclass fun state field declared hstate hmem => ?_
      refine (h.stamped_initSubclass hbases _ List.mem_cons_self state field declared hstate
        hmem).imp_right ?_
      rintro ⟨b, hb, hdeclares⟩
      refine ⟨b, (List.mem_cons.mp hb).imp_right fun hb => ?_, hdeclares⟩
      exact exists_of_mem_mapM (basesAt_eq_some hbases).1 hb

theorem resolveAt_iff (h : Lawful classes) (hkeeps : ∀ c ∈ classes, c.KeepsHandlers)
    {statement : Statement F M} (hdistinct : DistinctAt classes statement) :
    ResolveAt classes statement ↔ KeepsAt classes statement := by
  rcases statement with ⟨body, mro⟩ | ⟨body, fails, mro⟩
  · exact Iff.rfl
  · refine forall₂_congr fun bases hbases => ?_
    refine resolves_iff (fun base hbase => h.formed base (mem_of_basesAt hbases hbase))
      (fun base hbase => hkeeps base (mem_of_basesAt hbases hbase)) (fun base hbase => ?_)
      (hdistinct bases hbases) (h.stamped_initSubclass hbases)
    obtain ⟨place, -, hplace⟩ := exists_of_mem_mapM (basesAt_eq_some hbases).1 hbase
    have hlt := (List.getElem?_eq_some_iff.mp hplace).1
    rw [h.places place base hplace]
    omega

theorem keepsHandlers_of_keepsAt {classes' : List (Class F M)} {statement : Statement F M}
    (hkeeps : ∀ c ∈ classes, c.KeepsHandlers) (hstatement : KeepsAt classes statement)
    (hstep : hierarchy.step classes statement = some classes') :
    ∀ c ∈ classes', c.KeepsHandlers := by
  obtain ⟨c, hmake, rfl⟩ := Option.map_eq_some_iff.mp hstep
  rw [List.forall_mem_append, List.forall_mem_singleton]
  refine ⟨hkeeps, ?_⟩
  rcases statement with ⟨body, mro⟩ | ⟨body, fails, mro⟩
  · obtain ⟨bases, -, rfl⟩ := Option.map_eq_some_iff.mp hmake
    exact fun attrName handler hmem => mem_written.mpr hmem
  · obtain ⟨bases, hbases, rfl⟩ := Option.map_eq_some_iff.mp hmake
    exact keepsHandlers_initSubclass.mpr (hstatement bases hbases).kept

/-- **Commands resolve the same way** in every hierarchy in which no two hand-written handlers of
different method names share a wire name, if and only if its class statements keep to the
condition. -/
theorem resolve_iff {statements : List (Statement F M)}
    (hrun : hierarchy.run statements = some classes)
    (hdistinct : hierarchy.AllSteps DistinctAt statements) :
    hierarchy.AllSteps ResolveAt statements ↔ hierarchy.AllSteps KeepsAt statements := by
  suffices h : (hierarchy.AllSteps ResolveAt statements ↔ hierarchy.AllSteps KeepsAt statements) ∧
      (hierarchy.AllSteps KeepsAt statements → ∀ c ∈ classes, c.KeepsHandlers) from h.1
  revert hdistinct
  refine TransitionSystem.run_induction (T := hierarchy)
    (motive := fun statements classes => hierarchy.AllSteps DistinctAt statements →
      (hierarchy.AllSteps ResolveAt statements ↔ hierarchy.AllSteps KeepsAt statements) ∧
      (hierarchy.AllSteps KeepsAt statements → ∀ c ∈ classes, c.KeepsHandlers)) ?_ ?_
    statements classes hrun
  · refine fun _ => ⟨Iff.rfl, fun _ c hc => ?_⟩
    cases hc
  · intro statements classes statement classes' hrun ih hstep
    have hlawful : Lawful classes := lawful_isInvariant.of_run hrun
    have hconcat (G : List (Class F M) → Statement F M → Prop) :
        hierarchy.AllSteps G (statements ++ [statement]) ↔
          hierarchy.AllSteps G statements ∧ G classes statement := by
      unfold TransitionSystem.AllSteps
      rw [TransitionSystem.allStepsFrom_concat]
      refine and_congr_right fun _ => ⟨fun h => h classes hrun, fun h before hbefore => ?_⟩
      obtain rfl := Option.some.inj (hrun.symm.trans hbefore)
      exact h
    rw [hconcat, hconcat, hconcat]
    rintro ⟨hdistinct, hlast⟩
    obtain ⟨hiff, hkept⟩ := ih hdistinct
    constructor
    · rw [hiff]
      exact and_congr_right fun hkeeps => resolveAt_iff hlawful (hkept hkeeps) hlast
    · rintro ⟨hkeeps, hstatement⟩
      exact keepsHandlers_of_keepsAt (hkept hkeeps) hstatement hstep

end Hierarchy

/-! ### Some hierarchies -/

/-- A state with the given fields, of which nothing is declared. -/
def plainState (names : List String) (h : names.Nodup) : StateClass Unit where
  fields := names.map fun name => (name, ())
  nodup := by
    rw [List.map_map]
    exact (List.map_id names).symm ▸ h

def speedState : StateClass Unit := plainState ["speed"] (by decide)

def handlerBody (attrName name : String) (state : Option (StateClass Unit)) : Body Unit Unit where
  attributes := [(attrName, some { name, method := () })]
  annotation := state.map fun state => .type (some state)
  nodup := List.nodup_singleton _

def plainBody (state : Option (StateClass Unit)) : Body Unit Unit where
  attributes := []
  annotation := state.map fun state => .type (some state)
  nodup := List.nodup_nil

theorem handlerBody_declares {attrName name attrName' name' : String}
    {state : Option (StateClass Unit)}
    (h : (handlerBody attrName name state).Declares name' attrName') :
    name' = name ∧ attrName' = attrName := by
  obtain ⟨handler, hmem, rfl⟩ := h
  obtain ⟨rfl, heq⟩ := Prod.mk.inj (List.mem_singleton.mp hmem)
  rw [Option.some.inj heq]
  exact ⟨rfl, rfl⟩

theorem plainBody_declares {attrName name : String} {state : Option (StateClass Unit)} :
    ¬ (plainBody state).Declares name attrName := by
  rintro ⟨handler, hmem, -⟩
  cases hmem

def ownHierarchy : List (Statement Unit Unit) :=
  [.app (handlerBody "set_speed" "set_speed"
      (some (plainState ["speed", "seed"] (by decide)))) false [],
    .app (plainBody (some (plainState ["seed"] (by decide)))) false [0]]

/-- A handler of `set_speed` that is called otherwise, below an app with a speed. -/
def clashingHierarchy : List (Statement Unit Unit) :=
  [.app (plainBody (some speedState)) false [],
    .app (handlerBody "change_speed" "set_speed" none) false [0]]

/-- A mixin with a handler of `set_speed`, after an app with a speed. -/
def mixedHierarchy : List (Statement Unit Unit) :=
  [.app (plainBody (some speedState)) false [],
    .mixin (handlerBody "set_speed" "set_speed" none) [],
    .app (plainBody none) false [0, 1]]

def hiddenHierarchy : List (Statement Unit Unit) :=
  [.app (handlerBody "set_speed" "speed" (some speedState)) false []]

theorem isSome_ownHierarchy : (hierarchy.run ownHierarchy).isSome := rfl

/-- What the classes of an app and its bases may declare, if only `set_speed` is declared. -/
def OnlySpeed (bodies : List (Body Unit Unit)) : Prop :=
  ∀ body ∈ bodies, ∀ name attrName, body.Declares name attrName →
    name = "set_speed" ∧ attrName = "set_speed"

theorem OnlySpeed.distinct {bodies : List (Body Unit Unit)} (h : OnlySpeed bodies) :
    Distinct bodies := by
  intro body hbody body' hbody' name attrName attrName' hdeclares hdeclares'
  rw [(h body hbody name attrName hdeclares).2, (h body' hbody' name attrName' hdeclares').2]

theorem onlySpeed_handlerBody (state : Option (StateClass Unit)) :
    OnlySpeed [handlerBody "set_speed" "set_speed" state] := by
  intro body hbody name attrName h
  rw [List.mem_singleton.mp hbody] at h
  exact handlerBody_declares h

theorem OnlySpeed.cons_plainBody {bodies : List (Body Unit Unit)} (h : OnlySpeed bodies)
    (state : Option (StateClass Unit)) : OnlySpeed (plainBody state :: bodies) := by
  intro body hbody name attrName hdeclares
  rcases List.mem_cons.mp hbody with rfl | hbody
  · exact absurd hdeclares plainBody_declares
  · exact h body hbody name attrName hdeclares

theorem resolve_ownHierarchy : hierarchy.AllSteps ResolveAt ownHierarchy := by
  have hfirst := onlySpeed_handlerBody (some (plainState ["speed", "seed"] (by decide)))
  have hsecond := hfirst.cons_plainBody (some (plainState ["seed"] (by decide)))
  refine (resolve_iff (Option.some_get isSome_ownHierarchy).symm ?_).mpr ?_
  · refine ⟨fun bases hbases => ?_, fun classes hclasses => ⟨fun bases hbases => ?_, ?_⟩⟩
    · cases hbases
      exact hfirst.distinct
    · cases hclasses
      cases hbases
      exact hsecond.distinct
    · exact fun _ _ => trivial
  · refine ⟨fun bases hbases => ⟨?_, ?_, ?_⟩, fun classes hclasses => ⟨fun bases hbases => ?_, ?_⟩⟩
    · rintro state field - - hfree handler hmem
      obtain ⟨hname, -⟩ := Prod.mk.inj (List.mem_singleton.mp hmem)
      refine hfree ?_
      rw [hname]
      exact mem_existingCommandNames.mpr (.inl ⟨"set_speed", _, List.mem_singleton_self _, rfl⟩)
    · rintro field - ⟨base, hbase, -⟩
      cases hbases
      cases hbase
    · rintro field - before base after heq
      cases hbases
      cases before <;> cases heq
    · cases hclasses
      cases hbases
      -- The one field of the second app is the seed, of which there is no handler.
      have hseed (field : String) (hfield : field ∈ ["seed"]) (body : Body Unit Unit)
          (hbody : body ∈ plainBody (some (plainState ["seed"] (by decide))) ::
            [handlerBody "set_speed" "set_speed"
              (some (plainState ["speed", "seed"] (by decide)))]) (attrName : String) :
          ¬ body.Declares (setName field) attrName := by
        intro hdeclares
        rw [List.mem_singleton.mp hfield] at hdeclares
        exact absurd (hsecond body hbody _ attrName hdeclares).1 (by decide)
      refine ⟨?_, ?_, ?_⟩
      · rintro state field - - - handler hmem
        cases hmem
      · intro field hfield _ body hbody attrName hdeclares
        exact absurd hdeclares (hseed field hfield body hbody attrName)
      · rintro field hfield before base after - - ⟨body, hbody, attrName, hdeclares⟩
        exact absurd hdeclares (hseed field hfield body hbody attrName)
    · exact fun _ _ => trivial

/-- The classes can be defined and no two handlers of different method names share a wire name, yet
the commands do not resolve as they should. -/
def Unresolved (statements : List (Statement Unit Unit)) : Prop :=
  (hierarchy.run statements).isSome ∧ hierarchy.AllSteps DistinctAt statements ∧
    ¬ hierarchy.AllSteps ResolveAt statements

/-- The handlers of methods that are all called the same. -/
theorem distinct_of_one {bodies : List (Body Unit Unit)} (attrName : String)
    (h : ∀ body ∈ bodies, ∀ name attrName', body.Declares name attrName' → attrName' = attrName) :
    Distinct bodies := by
  intro body hbody body' hbody' name one other hone hother
  rw [h body hbody name one hone, h body' hbody' name other hother]

theorem eq_of_handlerBody {attrName name : String} {state : Option (StateClass Unit)}
    (rest : List (Option (StateClass Unit))) :
    ∀ body ∈ handlerBody attrName name state :: rest.map plainBody, ∀ name' attrName',
      body.Declares name' attrName' → attrName' = attrName := by
  intro body hbody name' attrName' hdeclares
  rcases List.mem_cons.mp hbody with rfl | hbody
  · exact (handlerBody_declares hdeclares).2
  · obtain ⟨state, -, rfl⟩ := List.mem_map.mp hbody
    exact absurd hdeclares plainBody_declares

theorem unresolved_clashingHierarchy : Unresolved clashingHierarchy := by
  refine ⟨by decide +kernel, ⟨fun bases hbases => ?_, fun classes hclasses =>
    ⟨fun bases hbases => ?_, fun _ _ => trivial⟩⟩, fun h => ?_⟩
  · cases hbases
    exact distinct_of_one "set_speed" fun body hbody name attrName hdeclares =>
      absurd (List.mem_singleton.mp hbody ▸ hdeclares) plainBody_declares
  · cases hclasses
    cases hbases
    exact distinct_of_one "change_speed" (eq_of_handlerBody [some speedState])
  · -- The class with the handler is refused.
    obtain ⟨commands, hok, -⟩ := (h.2 _ rfl).1 _ rfl
    cases hok

theorem unresolved_mixedHierarchy : Unresolved mixedHierarchy := by
  refine ⟨by decide +kernel, ⟨fun bases hbases => ?_, fun classes hclasses =>
    ⟨trivial, fun classes' hclasses' => ⟨fun bases hbases => ?_, fun _ _ => trivial⟩⟩⟩, fun h => ?_⟩
  · cases hbases
    exact distinct_of_one "set_speed" fun body hbody name attrName hdeclares =>
      absurd (List.mem_singleton.mp hbody ▸ hdeclares) plainBody_declares
  · cases hclasses
    cases hclasses'
    cases hbases
    refine distinct_of_one "set_speed" fun body hbody => ?_
    have hmem : body ∈ [none, some speedState].map plainBody ++
        [handlerBody "set_speed" "set_speed" none] := hbody
    exact eq_of_handlerBody [none, some speedState] body
      ((List.perm_append_singleton _ _).mem_iff.mp hmem)
  · -- The setter of the base comes before the handler of the mixin.
    obtain ⟨commands, hok, hresolves⟩ := ((h.2 _ rfl).2 _ rfl).1 _ rfl
    have hbound := hresolves.handWritten "set_speed" _ rfl
    cases hok
    cases hbound

theorem unresolved_hiddenHierarchy : Unresolved hiddenHierarchy := by
  refine ⟨by decide +kernel, ⟨fun bases hbases => ?_, fun _ _ => trivial⟩, fun h => ?_⟩
  · cases hbases
    exact distinct_of_one "set_speed" (eq_of_handlerBody [])
  · -- The handler is overwritten by the setter, and so nothing is bound to `speed`.
    obtain ⟨commands, hok, hresolves⟩ := h.1 _ rfl
    have hbound := hresolves.handWritten "speed" _ rfl
    cases hok
    cases hbound

/-- Commands do not resolve the same way in every hierarchy. -/
theorem not_resolve : Unresolved clashingHierarchy ∧ Unresolved mixedHierarchy ∧
    Unresolved hiddenHierarchy :=
  ⟨unresolved_clashingHierarchy, unresolved_mixedHierarchy, unresolved_hiddenHierarchy⟩

end ReactorRuntime.AppContract
