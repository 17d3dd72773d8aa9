import ReactorRuntime.Runtime.Equiv.UploadResolution

/-!
# What the contract makes of resolved uploads

`resolution_keeps_verdict_iff`: the arguments of a command are resolved to the same with their
references replaced, and get the same verdict except where a constraint tells a reference from its
file: choices, of which no file is one, or a bound on the length, which a file has not.
-/

namespace ReactorRuntime.Runtime

open ReactorRuntime.Python
open ReactorRuntime.Python.Value (entryAt)
open ReactorRuntime.Interface

variable {fetch : Fetch}

/-! ### Choices -/

mutual

def holdsReference : TypeSpec → Argument → Bool
  | .upload, v => (uploadId? v).isSome
  | .optional inner, v => holdsReference inner v
  | .list item, .list items => items.any fun v => holdsReference item v
  | .dict spec, .dict entries => entries.any fun e => holdsReference spec e.2
  | .dataclass fields _, .dict entries => entries.any fun e => holdsReferenceIn fields e.1 e.2
  | _, _ => false

/-- Whether an entry of a dataclass holds a reference where its field declares an upload. -/
def holdsReferenceIn : List (String × TypeSpec) → PyStr → Argument → Bool
  | [], _, _ => false
  | (name, spec) :: fields, key, v =>
    if key = .text name then holdsReference spec v else holdsReferenceIn fields key v

end

mutual

/-- Whether a value holds a file. -/
def hasFile : Argument → Bool
  | .object _ => true
  | .list items => hasFileItem items
  | .dict entries => hasFileEntry entries
  | .none | .bool _ | .int _ | .float _ | .str _ => false

def hasFileItem : List Argument → Bool
  | [] => false
  | v :: items => hasFile v || hasFileItem items

def hasFileEntry : List (PyStr × Argument) → Bool
  | [] => false
  | (_, v) :: entries => hasFile v || hasFileEntry entries

end

mutual

theorem equals_of_hasFile : ∀ (r : Argument) (w : Json), hasFile r → r.equals true w = false
  | .object _, w, _ => by cases w <;> rfl
  | .list items, w, h => by
    rw [hasFile] at h
    cases w with
    | list items' => exact equalsItems_of_hasFile items items' h
    | _ => rfl
  | .dict entries, w, h => by
    rw [hasFile] at h
    cases w with
    | dict entries' =>
      rw [Value.equals, equalsEntries_of_hasFile entries entries' h, Bool.and_false]
    | _ => rfl
  | .none, _, h | .bool _, _, h | .int _, _, h | .float _, _, h | .str _, _, h => by cases h

theorem equalsItems_of_hasFile : ∀ (items : List Argument) (items' : List Json),
    hasFileItem items → Value.equalsItems true items items' = false
  | [], _, h => by cases h
  | _ :: _, [], _ => rfl
  | v :: items, w :: items', h => by
    rw [hasFileItem, Bool.or_eq_true] at h
    rw [Value.equalsItems]
    rcases h with h | h
    · rw [equals_of_hasFile v w h, Bool.false_and]
    · rw [equalsItems_of_hasFile items items' h, Bool.and_false]

theorem equalsEntries_of_hasFile : ∀ (entries : List (PyStr × Argument))
    (entries' : List (PyStr × Json)),
      hasFileEntry entries → Value.equalsEntries true entries entries' = false
  | [], _, h => by cases h
  | (key, v) :: entries, entries', h => by
    rw [hasFileEntry, Bool.or_eq_true] at h
    rw [Value.equalsEntries]
    rcases h with h | h
    · cases entries'.find? fun e => e.1 = key with
      | none => rfl
      | some e => simp [equals_of_hasFile v e.2 h]
    · rw [equalsEntries_of_hasFile entries entries' h, Bool.and_false]

end

theorem isIn_of_hasFile {r : Argument} (h : hasFile r) (values : List Json) :
    r.isIn true values = false := by
  simp [Value.isIn, equals_of_hasFile r _ h]

/-- What a resolved value is depends on what was held: a value with a file, or the very value. -/
structure FileOrSame (held : Bool) (v r : Argument) : Prop where
  file : held = true → hasFile r
  same : held = false → r = v

theorem fileOrSame_list {held : Argument → Bool} {items items' : List Argument}
    (hall : List.Forall₂ (fun v r => FileOrSame (held v) v r) items items') :
    FileOrSame (items.any held) (.list items) (.list items') := by
  have hitems : (items.any held = true → hasFileItem items') ∧
      (items.any held = false → items' = items) := by
    induction hall with
    | nil => simp
    | @cons v r items items' h _ ih =>
      rw [List.any_cons, hasFileItem, Bool.or_eq_true, Bool.or_eq_true, Bool.or_eq_false_iff]
      exact ⟨fun hheld => hheld.imp h.file ih.1, fun ⟨hv, hrest⟩ => by rw [h.same hv, ih.2 hrest]⟩
  exact ⟨hitems.1, fun h => congrArg Value.list (hitems.2 h)⟩

theorem fileOrSame_dict {held : PyStr × Argument → Bool}
    {entries entries' : List (PyStr × Argument)}
    (hall : List.Forall₂ (fun e e' => e'.1 = e.1 ∧ FileOrSame (held e) e.2 e'.2) entries entries') :
    FileOrSame (entries.any held) (.dict entries) (.dict entries') := by
  have hentries : (entries.any held = true → hasFileEntry entries') ∧
      (entries.any held = false → entries' = entries) := by
    induction hall with
    | nil => simp
    | @cons e e' entries entries' h _ ih =>
      obtain ⟨key', r⟩ := e'
      rw [List.any_cons, hasFileEntry, Bool.or_eq_true, Bool.or_eq_true, Bool.or_eq_false_iff]
      refine ⟨fun hheld => hheld.imp h.2.file ih.1, fun ⟨hv, hrest⟩ => ?_⟩
      rw [ih.2 hrest]
      exact congrArg (· :: entries) (Prod.ext h.1 (h.2.same hv))
  exact ⟨hentries.1, fun h => congrArg Value.dict (hentries.2 h)⟩

theorem FileOrSame.refl (v : Argument) : FileOrSame false v v :=
  ⟨fun h => (nomatch h), fun _ => rfl⟩

theorem holdsReference_none : ∀ spec : TypeSpec, holdsReference spec .none = false
  | .optional inner => by
    rw [holdsReference]
    exact holdsReference_none inner
  | .upload => rfl
  | .any | .primitive _ | .literal _ | .enum _ _ | .list _ | .dict _ | .dataclass _ _ => by
    simp [holdsReference]

mutual

theorem fileOrSame_resolveUploads : ∀ (spec : TypeSpec) {v r : Argument},
    resolveUploads fetch spec v = some r → FileOrSame (holdsReference spec v) v r
  | .any, v, _, h | .primitive _, v, _, h | .literal _, v, _, h | .enum _ _, v, _, h => by
    rw [resolveUploads] at h
    cases h
    simpa [holdsReference] using FileOrSame.refl v
  | .optional inner, v, r, h => by
    rw [holdsReference]
    cases v with
    | none =>
      rw [resolveUploads] at h
      cases h
      rw [holdsReference_none]
      exact .refl _
    | _ => exact fileOrSame_resolveUploads inner h
  | .list item, v, r, h => by
    cases v with
    | list items =>
      rw [resolveUploads_list] at h
      obtain ⟨items', hitems, rfl⟩ := Option.map_eq_some_iff.mp h
      rw [mapM_some_iff] at hitems
      rw [holdsReference]
      exact fileOrSame_list (hitems.imp fun v r hvr => fileOrSame_resolveUploads item hvr)
    | _ =>
      simp only [resolveUploads] at h
      cases h
      simpa [holdsReference] using FileOrSame.refl _
  | .dict spec, v, r, h => by
    cases v with
    | dict entries =>
      rw [resolveUploads_dict] at h
      obtain ⟨entries', hentries, rfl⟩ := Option.map_eq_some_iff.mp h
      rw [mapM_entries_iff fun _ v => resolveUploads fetch spec v] at hentries
      rw [holdsReference]
      exact fileOrSame_dict (hentries.imp fun e e' he =>
        ⟨he.1, fileOrSame_resolveUploads spec he.2⟩)
    | _ =>
      simp only [resolveUploads] at h
      cases h
      simpa [holdsReference] using FileOrSame.refl _
  | .dataclass fields required, v, r, h => by
    cases v with
    | dict entries =>
      rw [resolveUploads_dataclass] at h
      obtain ⟨entries', hentries, rfl⟩ := Option.map_eq_some_iff.mp h
      rw [mapM_entries_iff (resolveEntry fetch fields)] at hentries
      rw [holdsReference]
      exact fileOrSame_dict (hentries.imp fun e e' he =>
        ⟨he.1, fileOrSame_resolveEntry fields he.2⟩)
    | _ =>
      simp only [resolveUploads] at h
      cases h
      simpa [holdsReference] using FileOrSame.refl _
  | .upload, v, r, h => by
    rw [resolveUploads] at h
    rw [holdsReference]
    cases hid : uploadId? v with
    | none =>
      rw [hid] at h
      cases h
      exact .refl _
    | some id =>
      rw [hid] at h
      obtain ⟨file, hfile, rfl⟩ := Option.map_eq_some_iff.mp h
      exact ⟨fun _ => rfl, fun hnot => (nomatch hnot)⟩

theorem fileOrSame_resolveEntry : ∀ (fields : List (String × TypeSpec)) {key : PyStr}
    {v r : Argument}, resolveEntry fetch fields key v = some r →
      FileOrSame (holdsReferenceIn fields key v) v r
  | [], _, v, _, h => by
    rw [resolveEntry] at h
    cases h
    exact .refl _
  | (name, spec) :: fields, key, v, r, h => by
    rw [resolveEntry] at h
    rw [holdsReferenceIn]
    split_ifs at h ⊢
    · exact fileOrSame_resolveUploads spec h
    · exact fileOrSame_resolveEntry fields h

end

/-! ### Fields -/

/-- The constraints of a field that tell a reference from its file: choices, where the argument
holds a reference, and a bound on the length, where it is one. -/
def TellsApart (field : CommandField) (v : Argument) : Prop :=
  (field.info.choices.isSome ∧ holdsReference field.spec v) ∨
    ((field.info.minLength.isSome ∨ field.info.maxLength.isSome) ∧
      (referenceAt field.spec v []).isSome)

theorem length_shape (v : Argument) : (shape v).length = v.length := by
  cases v <;> simp [shape, Value.length]

theorem lessThan_shape (v : Argument) (bound : ℚ) :
    (shape v).lessThan bound = v.lessThan bound := by
  cases v <;> rfl

theorem greaterThan_shape (v : Argument) (bound : ℚ) :
    (shape v).greaterThan bound = v.greaterThan bound := by
  cases v <;> rfl

/-- What is a reference is a mapping. -/
theorem exists_of_uploadId? {v : Argument} {id : PyStr} (h : uploadId? v = some id) :
    ∃ entries, v = .dict entries := by
  cases v with
  | dict entries => exact ⟨entries, rfl⟩
  | _ => cases h

theorem referenceAt_nil : ∀ (spec : TypeSpec) {v : Argument} {id : PyStr},
    referenceAt spec v [] = some id → uploadId? v = some id
  | .upload, _, _, h => by rwa [referenceAt] at h
  | .optional inner, _, _, h => by
    rw [referenceAt] at h
    exact referenceAt_nil inner h
  | .any, _, _, h | .primitive _, _, _, h | .literal _, _, _, h | .enum _ _, _, _, h
  | .list _, _, _, h | .dict _, _, _, h | .dataclass _ _, _, _, h => by simp [referenceAt] at h

section Field

variable {field : CommandField} {v r : Argument}

theorem compared_alike (h : resolveUploads fetch field.spec v = some r) :
    (∀ bound, r.lessThan bound = v.lessThan bound) ∧
      (∀ bound, r.greaterThan bound = v.greaterThan bound) ∧
        ((referenceAt field.spec v []).isSome → r.length = none) ∧
          (referenceAt field.spec v [] = none → r.length = v.length) := by
  have hresolved := resolved_resolveUploads field.spec h
  cases hnil : referenceAt field.spec v [] with
  | none =>
    have hshape := hresolved.shape_eq hnil
    refine ⟨fun bound => ?_, fun bound => ?_, fun hsome => (nomatch hsome), fun _ => ?_⟩
    · rw [← lessThan_shape, hshape, lessThan_shape]
    · rw [← greaterThan_shape, hshape, greaterThan_shape]
    · rw [← length_shape, hshape, length_shape]
  | some id =>
    obtain ⟨file, -, rfl⟩ := hresolved.eq_object hnil
    obtain ⟨entries, rfl⟩ := exists_of_uploadId? (referenceAt_nil field.spec hnil)
    exact ⟨fun _ => rfl, fun _ => rfl, fun _ => rfl, fun hnone => (nomatch hnone)⟩

theorem checkChoices_resolved (h : resolveUploads fetch field.spec v = some r) :
    field.info.checkChoices r = none ↔ field.info.checkChoices v = none ∧
      ¬(field.info.choices.isSome ∧ holdsReference field.spec v) := by
  have hfile := fileOrSame_resolveUploads field.spec h
  unfold FieldInfo.checkChoices
  cases hchoices : field.info.choices with
  | none => simp
  | some choices =>
    by_cases hheld : holdsReference field.spec v
    · simp [isIn_of_hasFile (hfile.file hheld), hheld]
    · rw [hfile.same (Bool.eq_false_of_not_eq_true hheld)]
      simp [hheld]

theorem checkLength_resolved (h : resolveUploads fetch field.spec v = some r) :
    field.info.checkMinLength r = none ∧ field.info.checkMaxLength r = none ↔
      (field.info.checkMinLength v = none ∧ field.info.checkMaxLength v = none) ∧
        ¬((field.info.minLength.isSome ∨ field.info.maxLength.isSome) ∧
          (referenceAt field.spec v []).isSome) := by
  obtain ⟨-, -, hlost, hsame⟩ := compared_alike h
  unfold FieldInfo.checkMinLength FieldInfo.checkMaxLength
  cases hnil : referenceAt field.spec v [] with
  | none =>
    rw [hsame hnil]
    cases v.length <;> simp
  | some id =>
    rw [hlost (by rw [hnil]; rfl)]
    cases field.info.minLength with
    | none => cases field.info.maxLength <;> simp
    | some minLength => simp

/-- **One field**: a resolved argument passes where the one that was sent does, and no constraint
tells the two apart. -/
theorem passes_resolved (h : resolveUploads fetch field.spec v = some r) :
    field.Passes r ↔ field.Passes v ∧ ¬TellsApart field v := by
  obtain ⟨hless, hgreater, -, -⟩ := compared_alike h
  have hge : field.info.checkGe r = none ↔ field.info.checkGe v = none := by
    unfold FieldInfo.checkGe
    cases field.info.ge with
    | none => rfl
    | some ge =>
      simp only [Option.bind_some, hless]
      cases v.lessThan ge with
      | none => simp
      | some below => cases below <;> simp
  have hle : field.info.checkLe r = none ↔ field.info.checkLe v = none := by
    unfold FieldInfo.checkLe
    cases field.info.le with
    | none => rfl
    | some le =>
      simp only [Option.bind_some, hgreater]
      cases v.greaterThan le with
      | none => simp
      | some above => cases above <;> simp
  unfold CommandField.Passes TellsApart
  rw [validateField_eq_none, validateField_eq_none, check_resolveUploads field.spec h, hge, hle,
    checkChoices_resolved h, checkLength_resolved h, not_or]
  tauto

end Field

/-! ### Commands -/

theorem resolveInline_spec : ∀ {inline : List (String × TypeSpec)} {args args' : Arguments},
    (inline.map Prod.fst).Nodup → resolveInline fetch inline args = some args' →
      (∀ f ∈ inline, ∃ v r, Value.lookup args f.1 = some v ∧ resolveUploads fetch f.2 v = some r ∧
        Value.lookup args' f.1 = some r) ∧
      (∀ key, (∀ f ∈ inline, key ≠ .text f.1) → entryAt args' key = entryAt args key) ∧
        args'.map Prod.fst = args.map Prod.fst
  | [], args, args', _, h => by
    cases h
    simp
  | (param, spec) :: inline, args, args', hnodup, h => by
    rw [List.map_cons, List.nodup_cons] at hnodup
    obtain ⟨v, hv, h⟩ := Option.bind_eq_some_iff.mp h
    obtain ⟨r, hr, h⟩ := Option.bind_eq_some_iff.mp h
    obtain ⟨hinline, hothers, hkeys⟩ := resolveInline_spec hnodup.2 h
    have hlater : ∀ f ∈ inline, f.1 ≠ param := fun f hf heq =>
      hnodup.1 (List.mem_map.mpr ⟨f, hf, heq⟩)
    refine ⟨?_, fun key hkey => ?_, ?_⟩
    · rw [List.forall_mem_cons]
      constructor
      · refine ⟨v, r, hv, hr, ?_⟩
        rw [Value.lookup_eq_entryAt, hothers (.text param) fun f hf heq =>
          hlater f hf (PyStr.text.inj heq).symm, Value.entryAt_assign, if_pos rfl]
      · intro f hf
        obtain ⟨v', r', hv', hr', hlookup⟩ := hinline f hf
        have hne : PyStr.text f.1 ≠ .text param := fun heq => hlater f hf (PyStr.text.inj heq)
        rw [Value.lookup_eq_entryAt, Value.entryAt_assign, if_neg hne] at hv'
        exact ⟨v', r', hv', hr', hlookup⟩
    · rw [List.forall_mem_cons] at hkey
      rw [hothers key hkey.2, Value.entryAt_assign, if_neg hkey.1]
    · have hsome : (entryAt args (.text param)).isSome := by
        rw [← Value.lookup_eq_entryAt, hv]
        rfl
      rw [hkeys, Value.keys_assign r hsome]

/-- The arguments of a command as one value: a mapping with the fields of the command. -/
def argumentsSpec (contract : ModelContract) (name : String) : TypeSpec :=
  match contract.command? name with
  | some spec => .dataclass (spec.fields.map fun f => (f.1, f.2.spec)) []
  | none => .any

section Command

variable {contract : ModelContract} {name : String} {args args' : Arguments} {spec : CommandSpec}

theorem entryAt_resolved (hspec : contract.command? name = some spec)
    (h : resolveCommandUploads fetch contract name args [] = some args') :
    (∀ field ∈ spec.fields, ∀ v, entryAt args (.text field.1) = some v →
      ∃ r, resolveUploads fetch field.2.spec v = some r ∧
        entryAt args' (.text field.1) = some r) ∧
    (∀ key, (∀ field ∈ spec.fields, key ≠ .text field.1) → entryAt args' key = entryAt args key) ∧
      args'.map Prod.fst = args.map Prod.fst := by
  have hinline : resolveInline fetch (inlineUploadFields contract name args) args = some args' := h
  have hfields : ∀ f, f ∈ inlineUploadFields contract name args ↔ ∃ field ∈ spec.fields,
      ((Value.lookup args field.1).isSome ∧ declaresUpload field.2.spec) ∧
        (field.1, field.2.spec) = f := by
    intro f
    simp only [inlineUploadFields, hspec, List.mem_map, List.mem_filter, Bool.and_eq_true,
      and_assoc]
  have hnodup : ((inlineUploadFields contract name args).map Prod.fst).Nodup := by
    simp only [inlineUploadFields, hspec, List.map_map]
    exact spec.distinct.sublist (List.filter_sublist.map Prod.fst)
  obtain ⟨hresolved, hothers, hkeys⟩ := resolveInline_spec hnodup hinline
  refine ⟨fun field hfield v hv => ?_, fun key hkey => ?_, hkeys⟩
  · by_cases hdeclares : declaresUpload field.2.spec
    · have hmem := (hfields _).mpr
        ⟨field, hfield, ⟨by rw [Value.lookup_eq_entryAt, hv]; rfl, hdeclares⟩, rfl⟩
      obtain ⟨v', r, hv', hr, hlookup⟩ := hresolved _ hmem
      rw [Value.lookup_eq_entryAt, hv] at hv'
      cases hv'
      exact ⟨r, hr, hlookup⟩
    · -- a field that carries no upload is not walked, and would not be changed
      refine ⟨v, resolveUploads_of_not_declares _ v (Bool.eq_false_of_not_eq_true hdeclares), ?_⟩
      rw [hothers _ fun f hf heq => ?_, hv]
      obtain ⟨field', hfield', ⟨-, hkeep⟩, rfl⟩ := (hfields f).mp hf
      have hsame : field = field' :=
        List.inj_on_of_nodup_map spec.distinct hfield hfield' (PyStr.text.inj heq)
      exact hdeclares (hsame ▸ hkeep)
  · refine hothers key fun f hf heq => ?_
    obtain ⟨field, hfield, -, rfl⟩ := (hfields f).mp hf
    exact hkey field hfield heq

theorem resolved_unknown (hspec : contract.command? name = none)
    (h : resolveCommandUploads fetch contract name args [] = some args') : args' = args := by
  have hinline : resolveInline fetch (inlineUploadFields contract name args) args = some args' := h
  rw [inlineUploadFields, hspec] at hinline
  exact (Option.some.inj hinline).symm

theorem referenceIn_fields {fields : List (String × CommandField)}
    (hdistinct : (fields.map Prod.fst).Nodup) (key : PyStr) (v : Argument) (p : Position) :
    (∀ field ∈ fields, key = .text field.1 →
      referenceIn (fields.map fun f => (f.1, f.2.spec)) key v p = referenceAt field.2.spec v p) ∧
    ((∀ field ∈ fields, key ≠ .text field.1) →
      referenceIn (fields.map fun f => (f.1, f.2.spec)) key v p = none) := by
  induction fields with
  | nil => simp [referenceIn]
  | cons f fields ih =>
    rw [List.map_cons, List.nodup_cons] at hdistinct
    obtain ⟨hin, hout⟩ := ih hdistinct.2
    rw [List.map_cons, referenceIn]
    constructor
    · intro field hfield hkey
      rcases List.mem_cons.mp hfield with rfl | hfield
      · rw [if_pos hkey]
      · have hne : key ≠ .text f.1 := by
          rintro rfl
          exact hdistinct.1 (List.mem_map.mpr ⟨field, hfield, (PyStr.text.inj hkey).symm⟩)
        rw [if_neg hne]
        exact hin field hfield hkey
    · intro hkey
      rw [List.forall_mem_cons] at hkey
      rw [if_neg hkey.1]
      exact hout hkey.2

/-- **Positions**: the resolved arguments are those that were sent with their references
replaced. -/
theorem resolved_resolveCommandUploads
    (h : resolveCommandUploads fetch contract name args [] = some args') :
    Resolved fetch (referenceAt (argumentsSpec contract name) (.dict args)) (.dict args)
      (.dict args') := by
  unfold argumentsSpec
  cases hspec : contract.command? name with
  | none =>
    rw [resolved_unknown hspec h]
    exact .refl (fun p => by simp [referenceAt]) _
  | some spec =>
    obtain ⟨hfields, hothers, hkeys⟩ := entryAt_resolved hspec h
    refine .of_children ?_ (by simp [referenceAt]) fun place => ?_
    · have hshape := congrArg (List.map fun key => (key, (Value.none : Argument))) hkeys
      rw [List.map_map, List.map_map] at hshape
      exact congrArg Value.dict hshape
    · rcases place with ⟨index⟩ | ⟨key⟩
      · exact .inl ⟨rfl, rfl, fun p => by simp [referenceAt]⟩
      · cases hv : entryAt args key with
        | none =>
          refine .inl ⟨hv, ?_, fun p => by simp [referenceAt, hv]⟩
          show entryAt args' key = none
          rw [← Option.not_isSome_iff_eq_none, Value.entryAt_isSome, hkeys,
            ← Value.entryAt_isSome, hv]
          simp
        | some v =>
          by_cases hdeclared : ∃ field ∈ spec.fields, key = .text field.1
          · obtain ⟨field, hfield, rfl⟩ := hdeclared
            obtain ⟨r, hr, hentry⟩ := hfields field hfield v hv
            refine .inr ⟨v, r, hv, hentry, ?_⟩
            have href : (fun p => referenceAt
                (.dataclass (spec.fields.map fun f => (f.1, f.2.spec)) []) (.dict args)
                (.entry (.text field.1) :: p)) = referenceAt field.2.spec v := by
              funext p
              rw [referenceAt, hv]
              exact (referenceIn_fields spec.distinct _ v p).1 field hfield rfl
            rw [href]
            exact resolved_resolveUploads field.2.spec hr
          · have hnot : ∀ field ∈ spec.fields, key ≠ .text field.1 := fun field hfield heq =>
              hdeclared ⟨field, hfield, heq⟩
            refine .inr ⟨v, v, hv, (hothers key hnot).trans hv, .refl (fun p => ?_) v⟩
            rw [referenceAt, hv]
            exact (referenceIn_fields spec.distinct key v p).2 hnot

/-- Whether no argument meets a constraint that tells a reference from its file. -/
def Indifferent (contract : ModelContract) (name : String) (args : Arguments) : Prop :=
  ∀ spec, contract.command? name = some spec → ∀ field ∈ spec.fields, ∀ v,
    Value.lookup args field.1 = some v → ¬TellsApart field.2 v

/-- **Verdicts**: the resolved arguments are accepted where those that were sent are, and no
constraint tells a reference from its file. -/
theorem accepts_resolved (h : resolveCommandUploads fetch contract name args [] = some args') :
    contract.Accepts name args' ↔ contract.Accepts name args ∧ Indifferent contract name args := by
  rw [contract.accepts_iff, contract.accepts_iff]
  cases hspec : contract.command? name with
  | none => simp
  | some spec =>
    obtain ⟨hfields, -, hkeys⟩ := entryAt_resolved hspec h
    have hkeyed : ∀ l : Arguments, (∀ arg ∈ l, spec.declares arg.1) ↔
        ∀ key ∈ l.map Prod.fst, spec.declares key := fun l => by simp
    have hdeclared : (∀ arg ∈ args', spec.declares arg.1) ↔ ∀ arg ∈ args, spec.declares arg.1 := by
      rw [hkeyed, hkeyed, hkeys]
    have hcontent : ∀ field ∈ spec.fields, (Content args' field ↔ Content args field ∧
        ∀ v, Value.lookup args field.1 = some v → ¬TellsApart field.2 v) := by
      intro field hfield
      unfold Content
      cases hv : Value.lookup args field.1 with
      | none =>
        have hnone : Value.lookup args' field.1 = none := by
          rw [← Option.not_isSome_iff_eq_none, Value.lookup_eq_entryAt, Value.entryAt_isSome, hkeys,
            ← Value.entryAt_isSome, ← Value.lookup_eq_entryAt, hv]
          simp
        simp [hnone]
      | some v =>
        obtain ⟨r, hr, hentry⟩ := hfields field hfield v hv
        have hsome : Value.lookup args' field.1 = some r := hentry
        simp [hsome, passes_resolved hr]
    have hindifferent : Indifferent contract name args ↔ ∀ field ∈ spec.fields, ∀ v,
        Value.lookup args field.1 = some v → ¬TellsApart field.2 v := by
      simp [Indifferent, hspec]
    rw [hindifferent]
    simp only [Option.some.injEq, exists_eq_left', hdeclared, and_assoc, ← forall₂_and]
    rw [forall₂_congr hcontent]

theorem firstRefusal_eq_none (input : StartingInput) : input.firstRefusal contract = none ↔
    ∀ c ∈ input.asCommands, contract.Accepts c.command c.data := by
  unfold StartingInput.firstRefusal
  rw [List.findSome?_eq_none_iff]
  refine forall₂_congr fun c _ => ?_
  unfold ModelContract.Accepts
  cases contract.validate c.command c.data <;> simp

end Command

/-- **Resolving uploads**: the resolved arguments are those that were sent with their references
replaced; and they get the same verdict exactly where the arguments that were sent are refused, or
no constraint tells a reference from its file.  So the commands of an accepted starting input are
accepted, once their uploads arrive, exactly where no constraint does. -/
theorem resolution_keeps_verdict_iff (fetch : Fetch) (contract : ModelContract) :
    (∀ name args args', resolveCommandUploads fetch contract name args [] = some args' →
      Resolved fetch (referenceAt (argumentsSpec contract name) (.dict args)) (.dict args)
        (.dict args') ∧
      ((contract.Accepts name args ↔ contract.Accepts name args') ↔
        (contract.Accepts name args → Indifferent contract name args))) ∧
    ∀ input : StartingInput, input.firstRefusal contract = none →
      ((∀ c ∈ input.asCommands, ∀ args',
          resolveCommandUploads fetch contract c.command c.data [] = some args' →
            contract.Accepts c.command args') ↔
        ∀ c ∈ input.asCommands,
          (resolveCommandUploads fetch contract c.command c.data []).isSome →
            Indifferent contract c.command c.data) := by
  refine ⟨fun name args args' h => ⟨resolved_resolveCommandUploads h, ?_⟩,
    fun input hinput => forall₂_congr fun c hc => ?_⟩
  · rw [accepts_resolved h]
    tauto
  · have haccepts := (firstRefusal_eq_none input).mp hinput c hc
    constructor
    · intro hall hsome
      obtain ⟨args', hargs'⟩ := Option.isSome_iff_exists.mp hsome
      exact ((accepts_resolved hargs').mp (hall args' hargs')).2
    · intro hindifferent args' hargs'
      exact (accepts_resolved hargs').mpr ⟨haccepts, hindifferent (by rw [hargs']; rfl)⟩

/-- A model with a command whose field is an upload that may not be empty. -/
def imageContract : ModelContract where
  commands := [("set_image", {
    fields := [("image", { spec := .upload, info := { minLength := some 1 } })]
    distinct := by simp })]

def imageArgs : Arguments := [(.text "image", .dict [(.text "upload_id", .str (.text "u1"))])]

def imageFetch : Fetch := fun _ => some ⟨"a.png", "image/png", [1]⟩

/-- A starting input with the reference is accepted, and its command is refused once the file is
there. -/
theorem starting_upload_refused :
    StartingInput.firstRefusal imageContract ⟨[], [⟨"set_image", imageArgs⟩]⟩ = none ∧
      imageContract.Accepts "set_image" imageArgs ∧
        ∃ args',
          resolveCommandUploads imageFetch imageContract "set_image" imageArgs [] = some args' ∧
            ¬imageContract.Accepts "set_image" args' := by
  have haccepts : imageContract.Accepts "set_image" imageArgs := ⟨_, rfl⟩
  refine ⟨(firstRefusal_eq_none _).mpr ?_, haccepts, _, rfl, ?_⟩
  · intro c hc
    rw [List.mem_singleton.mp hc]
    exact haccepts
  · rintro ⟨args, hargs⟩
    cases hargs

/-- Without a bound on the length, the file of a reference is accepted as the reference was. -/
def freeContract : ModelContract where
  commands := [("set_image", {
    fields := [("image", { spec := .upload, info := {} })]
    distinct := by simp })]

theorem resolution_keeps_verdict_free : ∃ args',
    resolveCommandUploads imageFetch freeContract "set_image" imageArgs [] = some args' ∧
      (freeContract.Accepts "set_image" imageArgs ↔ freeContract.Accepts "set_image" args') := by
  refine ⟨_, rfl, ((resolution_keeps_verdict_iff imageFetch freeContract).1 "set_image" imageArgs _
    rfl).2.mpr fun _ => ?_⟩
  intro spec hspec field hfield v _
  cases hspec
  rw [List.mem_singleton.mp hfield]
  rintro (⟨hchoices, -⟩ | ⟨hmin | hmax, -⟩)
  · cases hchoices
  · cases hmin
  · cases hmax

end ReactorRuntime.Runtime
