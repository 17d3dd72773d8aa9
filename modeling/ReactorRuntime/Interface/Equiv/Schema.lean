import ReactorRuntime.Interface.Equiv.Contract
import ReactorRuntime.Interface.Schema
import ReactorRuntime.Runtime.UploadResolution

/-!
# The published schema and the validation of requests

Both demand that a value fits its type, but for `exact`: the schema has two values equal as JSON has
it, where `True == 1` in the checks, and wants upload references whole
(`toJsonSchema_valid`, `check_eq_none_iff`).

A rendered field demands `Common` and `Exact` (`commandFieldSchema_valid`), the checks of a field
demand `Common` and `Bounded` (`passes_iff`), and `schema_agrees_iff` says when that is the same.
The arguments are as JSON or with uploads in place; nothing depends on which.
-/

namespace ReactorRuntime.Interface

open ReactorRuntime.Python
open ReactorRuntime.JsonSchema

/-! ### Types -/

def isFile : Argument → Bool
  | .object _ => true
  | _ => false

mutual

/-- Whether a value fits a type: `exact` where it is to be equal to a literal value as JSON has it,
and an upload reference is to be whole. -/
def fits (exact : Bool) : TypeSpec → Argument → Bool
  | .any, _ => true
  | .primitive pyType, v => pyType.isInstance v
  | .literal values, v => v.isIn (!exact) values
  | .enum _ members, v => v.isIn (!exact) members
  | .list item, v =>
    match v with
    | .list items => items.all fun v => fits exact item v
    | _ => false
  | .dict spec, v =>
    match v with
    | .dict entries => entries.all fun e => fits exact spec e.2
    | _ => false
  | .dataclass fields required, v =>
    match v with
    | .dict entries => (required.all fun name => (Value.lookup entries name).isSome) &&
        entries.all fun e => fitsField exact fields e.1 e.2
    | _ => false
  | .optional inner, v =>
    match v with
    | .none => true
    | v => fits exact inner v
  | .upload, v =>
    if exact then uploadReferenceSchema.valid (fun _ _ => false) v
    else isFile v || (uploadId? v).isSome

/-- Whether an entry of a dataclass fits the field of its name, if there is one. -/
def fitsField (exact : Bool) : List (String × TypeSpec) → PyStr → Argument → Bool
  | [], _, _ => true
  | (name, spec) :: fields, key, v =>
    if key = .text name then fits exact spec v else fitsField exact fields key v

end

mutual

theorem check_eq_none_iff : ∀ (spec : TypeSpec) (v : Argument),
    spec.check v = none ↔ fits false spec v
  | .any, _ => by simp [TypeSpec.check, fits]
  | .primitive pyType, v => by simp [TypeSpec.check, fits]
  | .literal values, v => by simp [TypeSpec.check, fits]
  | .enum name members, v => by simp [TypeSpec.check, fits]
  | .list item, v => by
    cases v with
    | list items =>
      rw [check_list_eq_none, fits, List.all_eq_true]
      exact forall₂_congr fun v _ => check_eq_none_iff item v
    | _ => simp [TypeSpec.check, fits]
  | .dict spec, v => by
    cases v with
    | dict entries =>
      rw [check_dict_eq_none, fits, List.all_eq_true]
      exact forall₂_congr fun e _ => check_eq_none_iff spec e.2
    | _ => simp [TypeSpec.check, fits]
  | .dataclass fields required, v => by
    cases v with
    | dict entries =>
      rw [check_dataclass_eq_none, fits, Bool.and_eq_true, List.all_eq_true, List.all_eq_true]
      exact and_congr_right fun _ => forall₂_congr fun e _ =>
        checkField_eq_none_iff fields e.1 e.2
    | _ => simp [TypeSpec.check, fits]
  | .optional inner, v => by
    cases v with
    | none => simp [TypeSpec.check, fits]
    | _ => exact check_eq_none_iff inner _
  | .upload, v => by
    cases v <;> simp [TypeSpec.check, fits, isFile, Option.isSome_iff_ne_none]

theorem checkField_eq_none_iff : ∀ (fields : List (String × TypeSpec)) (key : PyStr)
    (v : Argument), TypeSpec.checkField fields key v = none ↔ fitsField false fields key v
  | [], _, _ => by simp [TypeSpec.checkField, fitsField]
  | (name, spec) :: fields, key, v => by
    rw [TypeSpec.checkField, fitsField]
    split_ifs
    · exact check_eq_none_iff spec v
    · exact checkField_eq_none_iff fields key v

end

theorem uploadId?_of_valid {v : Argument}
    (h : uploadReferenceSchema.valid (fun _ _ => false) v) : (uploadId? v).isSome := by
  unfold Schema.valid at h
  rw [validKeywords_iff] at h
  have htype := h (.type .object) (by simp [uploadReferenceSchema])
  cases v with
  | dict entries =>
    have hproperties := h (.properties [("upload_id", [.type .string, .format "uuid"]),
      ("name", [.type .string]), ("mime_type", [.type .string]), ("size", [.type .integer])])
      (by simp [uploadReferenceSchema])
    have hrequired := h (.required ["upload_id", "name", "mime_type", "size"])
      (by simp [uploadReferenceSchema])
    obtain ⟨id, hid⟩ := Option.isSome_iff_exists.mp
      (List.all_eq_true.mp hrequired "upload_id" (by simp))
    have hstring := List.all_eq_true.mp hproperties _ (Value.mem_of_lookup hid)
    rw [validProperty, if_pos rfl, validKeywords, Bool.and_eq_true] at hstring
    rw [uploadId?, hid]
    cases id with
    | str s => rfl
    | _ => cases hstring.1
  | _ => cases htype

mutual

theorem fits_of_exact : ∀ (spec : TypeSpec) (v : Argument), fits true spec v → fits false spec v
  | .any, _, _ => rfl
  | .primitive _, _, h => h
  | .literal values, v, h => Value.isIn_of_false h
  | .enum _ members, v, h => Value.isIn_of_false h
  | .list item, v, h => by
    cases v with
    | list items =>
      rw [fits, List.all_eq_true] at h ⊢
      exact fun v hv => fits_of_exact item v (h v hv)
    | _ => cases h
  | .dict spec, v, h => by
    cases v with
    | dict entries =>
      rw [fits, List.all_eq_true] at h ⊢
      exact fun e he => fits_of_exact spec e.2 (h e he)
    | _ => cases h
  | .dataclass fields required, v, h => by
    cases v with
    | dict entries =>
      rw [fits, Bool.and_eq_true, List.all_eq_true (p := fun e => fitsField _ _ _ _)] at h ⊢
      exact ⟨h.1, fun e he => fitsField_of_exact fields e.1 e.2 (h.2 e he)⟩
    | _ => cases h
  | .optional inner, v, h => by
    cases v with
    | none => rfl
    | _ => exact fits_of_exact inner _ h
  | .upload, v, h => by
    have hid : (uploadId? v).isSome := uploadId?_of_valid h
    rw [fits, if_neg (by decide), hid, Bool.or_true]

theorem fitsField_of_exact : ∀ (fields : List (String × TypeSpec)) (key : PyStr) (v : Argument),
    fitsField true fields key v → fitsField false fields key v
  | [], _, _, _ => rfl
  | (name, spec) :: fields, key, v, h => by
    rw [fitsField] at h ⊢
    split_ifs at h ⊢
    · exact fits_of_exact spec v h
    · exact fitsField_of_exact fields key v h

end

def hasMemberType (values : List Json) (v : Argument) : Bool :=
  match memberType values with
  | some t => t.holds v
  | none => true

theorem isIntegral_of_equals {v : Argument} {n : ℤ} (h : v.equals false (.int n : Json)) :
    v.isIntegral := by
  cases v with
  | int m => rfl
  | float x =>
    cases x with
    | finite x =>
      have hvalue : x.toRat = n := by
        simpa [Value.equals, Value.sameNumber, Value.numeral] using h
      simp [Value.isIntegral, hvalue]
    | _ => simp [Value.equals, Value.sameNumber, Value.numeral] at h
  | _ => simp [Value.equals, Value.sameNumber, Value.numeral] at h

theorem isNumber_of_equals {v : Argument} {x : PyFloat} (h : v.equals false (.float x : Json)) :
    v.isNumber := by
  cases v with
  | int m => rfl
  | float y => rfl
  | _ => simp [Value.equals, Value.sameNumber, Value.numeral] at h

theorem hasMemberType_of_isIn {values : List Json} {v : Argument} (h : v.isIn false values) :
    hasMemberType values v := by
  obtain ⟨w, hw, heq⟩ := List.any_eq_true.mp h
  unfold hasMemberType memberType
  split_ifs with hempty hbool hint hfloat hstr
  · rfl
  · have hkind := List.all_eq_true.mp hbool w hw
    cases w with
    | bool b =>
      cases v <;> first | rfl | simp [Value.equals, Value.sameNumber, Value.numeral] at heq
    | _ => cases hkind
  · have hkind := List.all_eq_true.mp hint w hw
    cases w with
    | int n => exact isIntegral_of_equals heq
    | _ => cases hkind
  · have hkind := List.all_eq_true.mp hfloat w hw
    cases w with
    | float x => exact isNumber_of_equals heq
    | _ => cases hkind
  · have hkind := List.all_eq_true.mp hstr w hw
    cases w with
    | str s =>
      cases v <;> first | rfl | simp [Value.equals, Value.sameNumber, Value.numeral] at heq
    | _ => cases hkind
  · rfl

theorem enumSchema_valid (values : List Json) (v : Argument) :
    (enumSchema values).valid components v = v.isIn false values := by
  have htype : v.isIn false values → hasMemberType values v := hasMemberType_of_isIn
  unfold hasMemberType at htype
  unfold enumSchema Schema.valid
  cases hmember : memberType values with
  | none => simp [validKeywords, Keyword.valid]
  | some t =>
    simp only [hmember] at htype
    simp only [validKeywords, Keyword.valid, Bool.and_true]
    cases hin : v.isIn false values with
    | false => rw [Bool.and_false]
    | true => rw [htype hin, Bool.and_true]

mutual

theorem toJsonSchema_valid : ∀ (spec : TypeSpec) (v : Argument),
    spec.toJsonSchema.valid components v = fits true spec v
  | .any, _ => rfl
  | .primitive pyType, v => by
    rw [TypeSpec.toJsonSchema, Schema.valid, validKeywords, validKeywords, Keyword.valid,
      Bool.and_true, fits]
    cases pyType <;> cases v <;> rfl
  | .literal values, v => by
    rw [TypeSpec.toJsonSchema, enumSchema_valid]
    rfl
  | .enum _ members, v => by
    rw [TypeSpec.toJsonSchema, enumSchema_valid]
    rfl
  | .list item, v => by
    cases v with
    | list items =>
      have hitem := fun v => toJsonSchema_valid item v
      simp only [Schema.valid] at hitem
      simp only [TypeSpec.toJsonSchema, Schema.valid, validKeywords, Keyword.valid, fits,
        JsonType.holds, Bool.true_and, Bool.and_true, hitem]
    | _ => rfl
  | .dict spec, v => by
    cases v with
    | dict entries =>
      have hvalue := fun v => toJsonSchema_valid spec v
      simp only [Schema.valid] at hvalue
      have hnames : (TypeSpec.dict spec).toJsonSchema.propertyNames = [] := rfl
      simp only [Schema.valid, hnames]
      simp only [TypeSpec.toJsonSchema, validKeywords, Keyword.valid, fits, JsonType.holds,
        Bool.true_and, Bool.and_true, List.any_nil, Bool.false_or, hvalue]
    | _ => rfl
  | .dataclass fields required, v => by
    cases v with
    | dict entries =>
      have hfields := fun key v => validProperty_fieldSchemas fields key v
      rw [TypeSpec.toJsonSchema, Schema.valid, validKeywords_append]
      simp only [validKeywords, Keyword.valid, fits, JsonType.holds, Bool.true_and, Bool.and_true,
        hfields]
      split_ifs with hrequired
      · rw [List.isEmpty_iff.mp hrequired]
        simp [validKeywords]
      · simp [validKeywords, Keyword.valid, Bool.and_comm]
    | _ =>
      rw [TypeSpec.toJsonSchema, Schema.valid, validKeywords_append]
      rfl
  | .optional inner, v => by
    have hinner := toJsonSchema_valid inner v
    rw [Schema.valid] at hinner
    simp only [TypeSpec.toJsonSchema, Schema.valid, validKeywords, Keyword.valid, validSome, hinner,
      Bool.and_true, Bool.or_false]
    cases v with
    | none => simp [fits, JsonType.holds]
    | _ => simp [fits, JsonType.holds]
  | .upload, v => by
    rw [TypeSpec.toJsonSchema, Schema.valid, validKeywords, validKeywords, Keyword.valid,
      Bool.and_true, fits, if_pos rfl, components, if_pos rfl]

theorem validProperty_fieldSchemas : ∀ (fields : List (String × TypeSpec)) (key : PyStr)
    (v : Argument), validProperty components (TypeSpec.fieldSchemas fields) key v =
      fitsField true fields key v
  | [], _, _ => rfl
  | (name, spec) :: fields, key, v => by
    rw [TypeSpec.fieldSchemas, validProperty, fitsField]
    split_ifs
    · exact toJsonSchema_valid spec v
    · exact validProperty_fieldSchemas fields key v

end

theorem key_of_toJsonSchema (spec : TypeSpec) {k : Keyword} (hk : k ∈ spec.toJsonSchema) :
    k.key ∈ ["type", "enum", "items", "additionalProperties", "properties", "required", "anyOf",
      "$ref"] := by
  have henum : ∀ values, k ∈ enumSchema values → k.key = "type" ∨ k.key = "enum" := by
    intro values hk
    unfold enumSchema at hk
    split at hk
    · rcases List.mem_pair.mp hk with rfl | rfl
      · exact .inl rfl
      · exact .inr rfl
    · rw [List.mem_singleton.mp hk]
      exact .inr rfl
  cases spec with
  | any => cases hk
  | literal values => rcases henum values hk with h | h <;> simp [h]
  | enum name members => rcases henum members hk with h | h <;> simp [h]
  | dataclass fields required =>
    rw [TypeSpec.toJsonSchema] at hk
    split_ifs at hk
    · rcases List.mem_pair.mp (by simpa using hk) with rfl | rfl <;> simp [Keyword.key]
    · rcases List.mem_append.mp hk with hk | hk
      · rcases List.mem_pair.mp hk with rfl | rfl <;> simp [Keyword.key]
      · rw [List.mem_singleton.mp hk]
        simp [Keyword.key]
  | list item => rcases List.mem_pair.mp hk with rfl | rfl <;> simp [Keyword.key]
  | dict value => rcases List.mem_pair.mp hk with rfl | rfl <;> simp [Keyword.key]
  | primitive _ | optional _ | upload =>
    rw [List.mem_singleton.mp hk]
    simp [Keyword.key]

/-! ### Fields -/

namespace CommandField

variable (field : CommandField)

/-- The members of a literal or an enumeration, where the rendered choices replace them. -/
def replaced : Option (List Json) :=
  match field.info.choices, field.spec with
  | some _, .literal values => some values
  | some _, .enum _ members => some members
  | _, _ => none

/-- What the schema of a field and its checks both demand of a value. -/
structure Common (v : Argument) : Prop where
  type : field.replaced = none → fits false field.spec v
  choices : ∀ choices ∈ field.info.choices, v.isIn true choices
  ge : ∀ ge ∈ field.info.ge, v.isNumber → v.lessThan ge = some false
  le : ∀ le ∈ field.info.le, v.isNumber → v.greaterThan le = some false
  minLength : ∀ bound ∈ field.info.minLength, ∀ s, v = .str s → bound ≤ s.points.length
  maxLength : ∀ bound ∈ field.info.maxLength, ∀ s, v = .str s → s.points.length ≤ bound

/-- What the schema demands beyond: members and choices are equal as JSON has it, upload references
are whole, and a replaced member leaves its type. -/
structure Exact (v : Argument) : Prop where
  type : field.replaced = none → fits true field.spec v
  members : ∀ values ∈ field.replaced, hasMemberType values v
  choices : ∀ choices ∈ field.info.choices, v.isIn false choices

/-- What the checks demand beyond: the members stay, a bound needs something comparable, a boolean
included, and a length something that has one. -/
structure Bounded (v : Argument) : Prop where
  members : ∀ values ∈ field.replaced, v.isIn true values
  ge : ∀ ge ∈ field.info.ge, v.isNumber ∨ v.lessThan ge = some false
  le : ∀ le ∈ field.info.le, v.isNumber ∨ v.greaterThan le = some false
  minLength : ∀ bound ∈ field.info.minLength, ∃ length, v.length = some length ∧ bound ≤ length
  maxLength : ∀ bound ∈ field.info.maxLength, ∃ length, v.length = some length ∧ length ≤ bound

/-- The keywords that are set on the schema of the type. -/
def keywords : List Keyword :=
  field.info.default.toList.map .default ++ constraintKeywords field.info

theorem commandFieldSchema_eq :
    commandFieldSchema field = field.keywords.foldl Schema.set field.spec.toJsonSchema := by
  rw [keywords, List.foldl_append]
  rfl

theorem keys_keywords : (field.keywords.map Keyword.key).Sublist
    (["default"] ++ (["description"] ++ ["minimum"] ++ ["maximum"] ++ ["minLength"] ++
      ["maxLength"] ++ ["enum"] ++ ["x-reactor-moderate"])) := by
  have hoption : ∀ {α : Type} (o : Option α) (f : α → Keyword) (key : String),
      (∀ a, (f a).key = key) → ((o.toList.map f).map Keyword.key).Sublist [key] := by
    intro α o f key hf
    cases o with
    | none => exact List.nil_sublist _
    | some a =>
      rw [Option.toList_some, List.map_singleton, List.map_singleton, hf]
  have hdescription : (((field.info.description.toList.filter fun text => text ≠ "").map
      Keyword.description).map Keyword.key).Sublist ["description"] :=
    ((List.filter_sublist.map _).map _).trans (hoption field.info.description _ _ fun _ => rfl)
  unfold keywords constraintKeywords
  simp only [List.map_append]
  refine List.Sublist.append (hoption _ _ _ fun _ => rfl) ?_
  refine List.Sublist.append (List.Sublist.append (List.Sublist.append (List.Sublist.append
    (List.Sublist.append (List.Sublist.append hdescription ?_) ?_) ?_) ?_) ?_)
    (List.Sublist.refl _)
  all_goals exact hoption _ _ _ fun _ => rfl

theorem without_keywords : field.spec.toJsonSchema.without (field.keywords.map Keyword.key) =
    field.spec.toJsonSchema.without (if field.info.choices.isSome then ["enum"] else []) := by
  refine List.filter_congr fun k hk => ?_
  have hkey := key_of_toJsonSchema field.spec hk
  have hiff : k.key ∈ field.keywords.map Keyword.key ↔
      k.key ∈ if field.info.choices.isSome then ["enum"] else [] := by
    generalize k.key = key at hkey
    unfold keywords constraintKeywords
    simp only [List.mem_cons, List.not_mem_nil, or_false] at hkey
    cases field.info.choices <;>
      rcases hkey with rfl | rfl | rfl | rfl | rfl | rfl | rfl | rfl <;> simp [Keyword.key]
  rw [decide_eq_decide, hiff]

theorem without_valid (v : Argument) :
    (validKeywords components field.spec.toJsonSchema.propertyNames
      (field.spec.toJsonSchema.without (field.keywords.map Keyword.key)) v ↔
        (field.replaced = none → fits true field.spec v) ∧
          ∀ values ∈ field.replaced, hasMemberType values v) := by
  have hall : ∀ keys, (∀ k ∈ field.spec.toJsonSchema, k.key ∉ keys) →
      validKeywords components field.spec.toJsonSchema.propertyNames
        (field.spec.toJsonSchema.without keys) v = fits true field.spec v := by
    intro keys hkeys
    have hself : field.spec.toJsonSchema.without keys = field.spec.toJsonSchema :=
      List.filter_eq_self.mpr fun k hk => decide_eq_true (hkeys k hk)
    rw [hself, ← toJsonSchema_valid]
    rfl
  have henum : ∀ values, validKeywords components (enumSchema values).propertyNames
      ((enumSchema values).without ["enum"]) v = hasMemberType values v := by
    intro values
    unfold enumSchema hasMemberType
    cases memberType values with
    | none => rfl
    | some t => exact Bool.and_true _
  rw [without_keywords]
  obtain ⟨spec, info⟩ := field
  cases hchoices : info.choices with
  | none =>
    simp [replaced, hchoices, hall [] (by simp)]
  | some choices =>
    simp only [replaced, hchoices, Option.isSome_some, if_true]
    cases spec with
    | literal values => simpa [TypeSpec.toJsonSchema] using henum values
    | enum name members => simpa [TypeSpec.toJsonSchema] using henum members
    | dataclass fields required =>
      rw [hall ["enum"] fun k hk => by
        simp only [TypeSpec.toJsonSchema] at hk
        split_ifs at hk <;> simp at hk <;> rcases hk with rfl | rfl | rfl <;> simp [Keyword.key]]
      simp
    | _ =>
      rw [hall ["enum"] (by simp [TypeSpec.toJsonSchema, Keyword.key])]
      simp

theorem lessThan_eq_some {v : Argument} (h : v.isNumber) (bound : ℚ) :
    v.lessThan bound ≠ some true ↔ v.lessThan bound = some false := by
  cases v with
  | int n => simp [Value.lessThan]
  | float x => cases x <;> simp [Value.lessThan]
  | _ => cases h

theorem greaterThan_eq_some {v : Argument} (h : v.isNumber) (bound : ℚ) :
    v.greaterThan bound ≠ some true ↔ v.greaterThan bound = some false := by
  cases v with
  | int n => simp [Value.greaterThan]
  | float x => cases x <;> simp [Value.greaterThan]
  | _ => cases h

theorem keywords_valid (names : List String) (v : Argument) :
    (∀ k ∈ field.keywords, k.valid components names v) ↔
      (∀ choices ∈ field.info.choices, v.isIn false choices) ∧
      (∀ ge ∈ field.info.ge, v.isNumber → v.lessThan ge = some false) ∧
      (∀ le ∈ field.info.le, v.isNumber → v.greaterThan le = some false) ∧
      (∀ bound ∈ field.info.minLength, ∀ s, v = .str s → bound ≤ s.points.length) ∧
      ∀ bound ∈ field.info.maxLength, ∀ s, v = .str s → s.points.length ≤ bound := by
  have hminimum : ∀ bound, (Keyword.minimum bound).valid components names v ↔
      (v.isNumber → v.lessThan bound = some false) := by
    intro bound
    cases hnumber : v.isNumber with
    | false => simp [Keyword.valid, hnumber]
    | true => simpa [Keyword.valid, hnumber] using lessThan_eq_some hnumber bound
  have hmaximum : ∀ bound, (Keyword.maximum bound).valid components names v ↔
      (v.isNumber → v.greaterThan bound = some false) := by
    intro bound
    cases hnumber : v.isNumber with
    | false => simp [Keyword.valid, hnumber]
    | true => simpa [Keyword.valid, hnumber] using greaterThan_eq_some hnumber bound
  have hminLength : ∀ bound, (Keyword.minLength bound).valid components names v ↔
      ∀ s, v = .str s → bound ≤ s.points.length := by
    intro bound
    cases v <;> simp [Keyword.valid]
  have hmaxLength : ∀ bound, (Keyword.maxLength bound).valid components names v ↔
      ∀ s, v = .str s → s.points.length ≤ bound := by
    intro bound
    cases v <;> simp [Keyword.valid]
  have henum : ∀ values, (Keyword.enum values).valid components names v ↔ v.isIn false values :=
    fun _ => Iff.rfl
  unfold keywords constraintKeywords
  simp only [List.forall_mem_append, List.forall_mem_map, Option.mem_toList, hminimum, hmaximum,
    hminLength, hmaxLength, henum]
  simp only [Keyword.valid, List.forall_mem_singleton]
  tauto

theorem commandFieldSchema_valid (v : Argument) :
    (commandFieldSchema field).valid components v ↔ field.Common v ∧ field.Exact v := by
  have hnames : ∀ k ∈ field.keywords, k.key ≠ "properties" := by
    intro k hk heq
    have hmem := field.keys_keywords.subset (List.mem_map_of_mem hk)
    rw [heq] at hmem
    revert hmem
    decide
  have hset := @Schema.validKeywords_foldl_set UploadedFile components
    field.spec.toJsonSchema.propertyNames v field.keywords field.spec.toJsonSchema [] (field.keys_keywords.nodup (by decide)) (fun k _ => List.not_mem_nil)
  have hself : ∀ schema : Schema, schema.without [] = schema :=
    fun schema => List.filter_eq_self.mpr fun k _ => decide_eq_true List.not_mem_nil
  rw [hself, List.append_nil, without_valid] at hset
  rw [commandFieldSchema_eq, Schema.valid, Schema.propertyNames_foldl_set _ _ hnames, hset,
    keywords_valid]
  constructor
  · rintro ⟨⟨htype, hmembers⟩, hchoices, hge, hle, hminLength, hmaxLength⟩
    exact ⟨⟨fun h => fits_of_exact _ v (htype h),
      fun choices h => Value.isIn_of_false (hchoices choices h), hge, hle, hminLength, hmaxLength⟩,
      htype, hmembers, hchoices⟩
  · rintro ⟨hcommon, hexact⟩
    exact ⟨⟨hexact.type, hexact.members⟩, hexact.choices, hcommon.ge, hcommon.le,
      hcommon.minLength, hcommon.maxLength⟩

/-- **The checked field**: what its checks demand. -/
theorem passes_iff (v : Argument) : field.Passes v ↔ field.Common v ∧ field.Bounded v := by
  have htype : fits false field.spec v ↔ (field.replaced = none → fits false field.spec v) ∧
      ∀ values ∈ field.replaced, v.isIn true values := by
    obtain ⟨spec, info⟩ := field
    cases hchoices : info.choices with
    | none => simp [replaced, hchoices]
    | some choices => cases spec <;> simp [replaced, hchoices, fits]
  have hchoices : field.info.checkChoices v = none ↔
      ∀ choices ∈ field.info.choices, v.isIn true choices := by
    simp [FieldInfo.checkChoices]
  have hge : field.info.checkGe v = none ↔ ∀ ge ∈ field.info.ge, v.lessThan ge = some false := by
    unfold FieldInfo.checkGe
    rw [Option.bind_eq_none_iff]
    refine forall₂_congr fun ge _ => ?_
    rcases v.lessThan ge with - | - | - <;> simp
  have hle : field.info.checkLe v = none ↔
      ∀ le ∈ field.info.le, v.greaterThan le = some false := by
    unfold FieldInfo.checkLe
    rw [Option.bind_eq_none_iff]
    refine forall₂_congr fun le _ => ?_
    rcases v.greaterThan le with - | - | - <;> simp
  have hminLength : field.info.checkMinLength v = none ↔ ∀ bound ∈ field.info.minLength,
      ∃ length, v.length = some length ∧ bound ≤ length := by
    unfold FieldInfo.checkMinLength
    rw [Option.bind_eq_none_iff]
    refine forall₂_congr fun bound _ => ?_
    cases v.length <;> simp
  have hmaxLength : field.info.checkMaxLength v = none ↔ ∀ bound ∈ field.info.maxLength,
      ∃ length, v.length = some length ∧ length ≤ bound := by
    unfold FieldInfo.checkMaxLength
    rw [Option.bind_eq_none_iff]
    refine forall₂_congr fun bound _ => ?_
    cases v.length <;> simp
  unfold Passes
  rw [check_eq_none_iff, validateField_eq_none, htype, hchoices, hge, hle, hminLength, hmaxLength]
  constructor
  · rintro ⟨⟨htype, hmembers⟩, hchoices, hge, hle, hminLength, hmaxLength⟩
    refine ⟨⟨htype, hchoices, fun ge h _ => hge ge h, fun le h _ => hle le h, ?_, ?_⟩,
      hmembers, fun ge h => .inr (hge ge h), fun le h => .inr (hle le h), hminLength, hmaxLength⟩
    · rintro bound h s rfl
      obtain ⟨length, hlength, hbound⟩ := hminLength bound h
      cases hlength
      exact hbound
    · rintro bound h s rfl
      obtain ⟨length, hlength, hbound⟩ := hmaxLength bound h
      cases hlength
      exact hbound
  · rintro ⟨hcommon, hbounded⟩
    refine ⟨⟨hcommon.type, hbounded.members⟩, hcommon.choices, fun ge h => ?_, fun le h => ?_,
      hbounded.minLength, hbounded.maxLength⟩
    · rcases hbounded.ge ge h with hnumber | hless
      · exact hcommon.ge ge h hnumber
      · exact hless
    · rcases hbounded.le le h with hnumber | hgreater
      · exact hcommon.le le h hnumber
      · exact hgreater

theorem no_default_iff : (∀ k ∈ commandFieldSchema field, k.key ≠ "default") ↔
    field.info.default = none := by
  rw [commandFieldSchema_eq, Schema.forall_key_foldl_set]
  constructor
  · rintro ⟨-, hkeywords⟩
    cases hdefault : field.info.default with
    | none => rfl
    | some value =>
      refine absurd rfl (hkeywords (.default value) (List.mem_append_left _ ?_))
      simp [hdefault]
  · intro hdefault
    refine ⟨fun k hk heq => ?_, fun k hk heq => ?_⟩
    · have hkey := key_of_toJsonSchema field.spec hk
      rw [heq] at hkey
      revert hkey
      decide
    · have hdescription : ∀ text, (Keyword.description text).key ≠ "default" :=
        fun _ => by simp [Keyword.key]
      simp [keywords, constraintKeywords, hdefault] at hk
      rcases hk with ⟨_, _, rfl⟩ | ⟨_, _, rfl⟩ | ⟨_, _, rfl⟩ | ⟨_, _, rfl⟩ | ⟨_, _, rfl⟩ |
        ⟨_, _, rfl⟩ | rfl <;> simp [Keyword.key] at heq

end CommandField

/-! ### Commands -/

namespace CommandSpec

variable (spec : CommandSpec) (rawArgs : Arguments)

def Supplied : Prop :=
  ∀ field ∈ spec.fields, field.2.info.default = none → (Value.lookup rawArgs field.1).isSome

def Each (P : CommandField → Argument → Prop) : Prop :=
  ∀ field ∈ spec.fields, ∀ v, Value.lookup rawArgs field.1 = some v → P field.2 v

def DeclaresUpload : Prop := ∃ field ∈ spec.fields, Runtime.declaresUpload field.2.spec

variable {spec rawArgs}

theorem content_iff : (∀ field ∈ spec.fields, Content rawArgs field) ↔
    spec.Supplied rawArgs ∧ spec.Each rawArgs CommandField.Passes := by
  unfold Content Supplied Each
  rw [← forall₂_and]
  refine forall₂_congr fun field _ => and_congr_left fun _ => ?_
  cases field.2.info.default <;> simp [Option.isSome_iff_ne_none]

/-- A body is valid where every required argument is there, and every argument is valid. -/
theorem toSchema_valid (hkeys : (rawArgs.map Prod.fst).Nodup)
    (hdeclared : ∀ arg ∈ rawArgs, spec.declares arg.1) :
    spec.toSchema.valid components (.dict rawArgs) ↔ spec.Supplied rawArgs ∧
      spec.Each rawArgs fun field v => (commandFieldSchema field).valid components v := by
  have hproperty : ∀ field ∈ spec.fields, ∀ v, validProperty components
      (spec.fields.map fun f => (f.1, commandFieldSchema f.2)) (.text field.1) v =
        (commandFieldSchema field.2).valid components v := by
    intro field hfield v
    refine validProperty_of_mem ?_ (List.mem_map_of_mem hfield)
    rw [List.map_map]
    exact spec.distinct
  have hrequired : (∀ name ∈ ((spec.fields.map fun f => (f.1, commandFieldSchema f.2)).filter
      fun p => p.2.all fun k => k.key ≠ "default").map Prod.fst,
        (Value.lookup rawArgs name).isSome) ↔ spec.Supplied rawArgs := by
    unfold Supplied
    simp only [List.forall_mem_map, List.mem_filter, List.all_eq_true, decide_eq_true_eq,
      and_imp]
    refine forall₂_congr fun field _ => ?_
    rw [field.2.no_default_iff]
  have hentries : (∀ e ∈ rawArgs, validProperty components
      (spec.fields.map fun f => (f.1, commandFieldSchema f.2)) e.1 e.2) ↔
        spec.Each rawArgs fun field v => (commandFieldSchema field).valid components v := by
    constructor
    · intro hall field hfield v hv
      rw [← hproperty field hfield]
      exact hall _ (Value.mem_of_lookup hv)
    · intro heach e he
      obtain ⟨field, hfield, hname⟩ := List.any_eq_true.mp (hdeclared e he)
      rw [decide_eq_true_eq] at hname
      rw [hname, hproperty field hfield]
      refine heach field hfield e.2 (Value.lookup_of_mem hkeys ?_)
      rw [← hname]
      exact he
  have hbody : spec.toSchema.valid components (.dict rawArgs) ↔
      (∀ e ∈ rawArgs, validProperty components
        (spec.fields.map fun f => (f.1, commandFieldSchema f.2)) e.1 e.2) ∧
      ∀ name ∈ ((spec.fields.map fun f => (f.1, commandFieldSchema f.2)).filter
        fun p => p.2.all fun k => k.key ≠ "default").map Prod.fst,
          (Value.lookup rawArgs name).isSome := by
    unfold toSchema bodySchema Schema.valid
    rw [validKeywords_append]
    split_ifs with hempty
    · rw [List.isEmpty_iff] at hempty
      simp only [hempty]
      simp [validKeywords, Keyword.valid, JsonType.holds]
    · simp only [validKeywords, Keyword.valid, JsonType.holds, Bool.true_and, Bool.and_true,
        Bool.and_eq_true, List.all_eq_true]
  rw [hbody, hentries, hrequired, and_comm]

end CommandSpec

/-- A command with a nullable integer that has a bound and defaults to null. -/
def boundedCommand : CommandSpec where
  fields := [("x",
    { spec := .optional (.primitive .int), info := { default := some .none, ge := some 0 } })]
  distinct := by simp

end ReactorRuntime.Interface
