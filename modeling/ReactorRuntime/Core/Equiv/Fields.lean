import ReactorRuntime.Core.Fields
import ReactorRuntime.Lists.Table

/-!
# What a record and a dataclass have under a name

Both merges take a name from the closest base that has it (`lookup_inheritedRecord`), and a class's
own annotation decides over both (`lookup_applyDataclass`).  They part where the closest base that
has the name in its dataclass has it as a `ClassVar`: the dataclass keeps that, and the record, not
having it, takes the field of a base further away (`agree_findSome?`).
-/

namespace ReactorRuntime.Core

open Lists

/-! ### Loops over names -/

theorem get_foldl {T D β : Type} (get : T → String → β) (step : T → String × D → T)
    (after : String → D → β → β) {ds : List (String × D)}
    (hsame : ∀ t, ∀ d ∈ ds, get (step t d) d.1 = after d.1 d.2 (get t d.1))
    (hother : ∀ t, ∀ d ∈ ds, ∀ name, name ≠ d.1 → get (step t d) name = get t name)
    (hnodup : (ds.map Prod.fst).Nodup) (t : T) (name : String) :
    get (ds.foldl step t) name =
      ((ds.lookup name).map fun d => after name d (get t name)).getD (get t name) := by
  induction ds generalizing t with
  | nil => rfl
  | cons d ds ih =>
    obtain ⟨first, settled⟩ := d
    rw [List.map_cons, List.nodup_cons] at hnodup
    obtain ⟨hnot, hrest⟩ := hnodup
    rw [List.foldl_cons, ih (fun t d hd => hsame t d (List.mem_cons_of_mem _ hd))
      (fun t d hd => hother t d (List.mem_cons_of_mem _ hd)) hrest]
    by_cases hname : name = first
    · subst hname
      have hnone : ds.lookup name = none := by
        rw [List.lookup_eq_none_iff]
        intro d hd
        have hmem : d.1 ∈ ds.map Prod.fst := List.mem_map_of_mem hd
        rw [bne_iff_ne]
        rintro rfl
        exact hnot hmem
      rw [hnone, List.lookup_cons_self]
      exact hsame t (name, settled) List.mem_cons_self
    · have hlookup : List.lookup name ((first, settled) :: ds) = ds.lookup name := by
        rw [List.lookup_cons, beq_eq_false_iff_ne.mpr hname]
      rw [hlookup, hother t (first, settled) List.mem_cons_self name hname]

variable {α : Type}

theorem lookup_union (s t : Table α) (name : String) :
    (s ∪ t).lookup name = (s.lookup name).or (t.lookup name) := by
  by_cases hmem : name ∈ s
  · rw [AList.lookup_union_left hmem]
    obtain ⟨value, hvalue⟩ := Option.isSome_iff_exists.mp (AList.lookup_isSome.mpr hmem)
    rw [hvalue]
    rfl
  · rw [AList.lookup_union_right hmem, AList.lookup_eq_none.mpr hmem, Option.none_or]

theorem lookup_inheritedRecord (records : List (Table α)) (name : String) :
    (inheritedRecord records).lookup name = records.findSome? fun record => record.lookup name := by
  unfold inheritedRecord
  rw [List.foldl_reverse]
  induction records with
  | nil => rfl
  | cons record records ih =>
    rw [List.foldr_cons, lookup_union, ih, List.findSome?_cons]
    cases record.lookup name <;> rfl

/-! ### The dataclass of a class -/

section Dataclass

variable {V Info : Type} {py : Objects V}

theorem getattr_of_lookup {attributes : Table (Attribute V Info)}
    (bases : List (Table (Attribute V Info))) {name : String} {value : Attribute V Info}
    (h : attributes.lookup name = some value) :
    getattr attributes bases name = some value := by
  rw [getattr, h]
  rfl

theorem lookup_hidden (py : Objects V) (attributes : Table (Attribute V Info))
    (required : List String) (name : String) :
    (required.foldl (fun attributes name =>
      attributes.insert name (.object py.missing)) attributes).lookup name =
      if name ∈ required then some (.object py.missing) else attributes.lookup name := by
  induction required generalizing attributes with
  | nil => rfl
  | cons first required ih =>
    rw [List.foldl_cons, ih, lookup_insert_if]
    by_cases hrest : name ∈ required
    · rw [if_pos hrest, if_pos (List.mem_cons_of_mem _ hrest)]
    · by_cases hfirst : name = first
      · subst hfirst
        rw [if_neg hrest, if_pos rfl, if_pos List.mem_cons_self]
      · rw [if_neg hrest, if_neg hfirst, if_neg]
        rw [List.mem_cons, not_or]
        exact ⟨hfirst, hrest⟩

variable {attributes : Table (Attribute V Info)} {annotations : List (String × Bool)}
  {bases : List (Table (Attribute V Info) × Table (DataclassField V Info))}
  {required : List String}

theorem lookup_applyDataclass (hnodup : (annotations.map Prod.fst).Nodup) (name : String) :
    (applyDataclass py attributes annotations bases required).1.lookup name =
      ((annotations.lookup name).map fun isClassVar =>
        if isClassVar then some .classVar
        else if name ∈ required then some (.field none)
        else some (.field (readDefault py (getattr attributes (bases.map Prod.fst) name)))).getD
      (bases.findSome? fun base => base.2.lookup name) := by
  have hhidden := lookup_hidden py attributes required
  unfold applyDataclass processClass
  dsimp only
  rw [get_foldl (fun fields name => AList.lookup name fields) _ (fun name isClassVar _ =>
    if isClassVar then some .classVar
    else if name ∈ required then some (.field none)
    else some (.field (readDefault py (getattr attributes (bases.map Prod.fst) name))))
    ?_ ?_ hnodup, lookup_inheritedRecord, List.findSome?_map]
  · rfl
  · intro fields hint _
    rw [AList.lookup_insert]
    split_ifs with hclassVar hrequired
    · rfl
    · have hmissing := getattr_of_lookup (bases.map Prod.fst)
        ((hhidden hint.1).trans (if_pos hrequired))
      rw [hmissing, readDefault, py.default_missing]
      rfl
    · unfold getattr
      rw [hhidden, if_neg hrequired]
  · intro fields hint _ name hname
    exact AList.lookup_insert_ne hname

end Dataclass

/-! ### A record against a dataclass -/

section Agree

variable {Entry V Info : Type}

/-- A name is a field of the record if and only if it is a field of the dataclass, and then the two
fit. -/
def Agree (fits : Entry → Option (Attribute V Info) → Prop) :
    Option Entry → Option (DataclassField V Info) → Prop
  | none, none | none, some .classVar => True
  | some entry, some (.field default) => fits entry default
  | _, _ => False

variable {fits : Entry → Option (Attribute V Info) → Prop}

theorem agree_iff {entry : Option Entry} {field : Option (DataclassField V Info)} :
    Agree fits entry field ↔
      (entry.isSome = true ↔ ∃ default, field = some (.field default)) ∧
        ∀ e default, entry = some e → field = some (.field default) → fits e default := by
  rcases entry with - | entry <;> rcases field with - | (default | -) <;> simp [Agree]

/-- Where the bases agree on a name, the two merges do unless the closest base that has it in its
dataclass has it as a `ClassVar` and some base has it in its record. -/
theorem agree_findSome? (bases : List (Option Entry × Option (DataclassField V Info)))
    (h : ∀ base ∈ bases, Agree fits base.1 base.2) :
    Agree fits (bases.findSome? Prod.fst) (bases.findSome? Prod.snd) ↔
      (bases.findSome? Prod.snd = some .classVar → ∀ base ∈ bases, base.1 = none) := by
  induction bases with
  | nil => exact iff_of_true trivial fun _ _ hbase => absurd hbase List.not_mem_nil
  | cons base bases ih =>
    obtain ⟨entry, field⟩ := base
    have hbase : Agree fits entry field := h (entry, field) List.mem_cons_self
    have hbases := ih fun base hmem => h base (List.mem_cons_of_mem _ hmem)
    rw [List.findSome?_cons, List.findSome?_cons]
    rcases field with - | (default | -)
    · -- the closest base knows nothing of the name
      rcases entry with - | entry
      · dsimp only
        rw [hbases, List.forall_mem_cons]
        simp only [true_and]
      · exact hbase.elim
    · rcases entry with - | entry
      · exact hbase.elim
      · exact iff_of_true hbase (by rintro ⟨⟩)
    · rcases entry with - | entry
      · dsimp only
        rw [List.forall_mem_cons]
        simp only [true_and, true_implies]
        rw [← List.findSome?_eq_none_iff]
        cases bases.findSome? Prod.fst with
        | none => exact iff_of_true trivial rfl
        | some entry => exact iff_of_false id (by rintro ⟨⟩)
      · exact hbase.elim

end Agree

end ReactorRuntime.Core
