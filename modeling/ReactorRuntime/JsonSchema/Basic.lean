import ReactorRuntime.Python.Comparison

/-!
# JSON Schema

The meaning of a schema as the 2020-12 draft has it, for the keywords that are used here.  A keyword
constrains the values of its own type only, a boolean is no number, a number without a fraction is
an integer however it is written, and `format`, `default` and `description` constrain nothing.

A value may hold objects that are not JSON's, which are of no type and equal to nothing.
-/

namespace ReactorRuntime.JsonSchema

open ReactorRuntime.Python

inductive JsonType where
  | null
  | boolean
  | integer
  | number
  | string
  | array
  | object
  deriving DecidableEq

/-- A keyword of a schema with its value; a schema is a list of these. -/
inductive Keyword where
  | type (t : JsonType)
  | enum (values : List Json)
  | properties (schemas : List (String × List Keyword))
  | additionalProperties (schema : List Keyword)
  | items (schema : List Keyword)
  | required (names : List String)
  | anyOf (schemas : List (List Keyword))
  | ref (component : String)
  | minimum (bound : ℚ)
  | maximum (bound : ℚ)
  | minLength (bound : ℤ)
  | maxLength (bound : ℤ)
  | default (value : Json)
  | description (text : String)
  | format (name : String)
  | extension (name : String) (value : Json)

abbrev Schema := List Keyword

namespace Keyword

def key : Keyword → String
  | type _ => "type"
  | enum _ => "enum"
  | properties _ => "properties"
  | additionalProperties _ => "additionalProperties"
  | items _ => "items"
  | required _ => "required"
  | anyOf _ => "anyOf"
  | ref _ => "$ref"
  | minimum _ => "minimum"
  | maximum _ => "maximum"
  | minLength _ => "minLength"
  | maxLength _ => "maxLength"
  | default _ => "default"
  | description _ => "description"
  | format _ => "format"
  | extension name _ => name

end Keyword

variable {α : Type}

def JsonType.holds : JsonType → Value α → Bool
  | null, .none => true
  | boolean, .bool _ => true
  | integer, v => v.isIntegral
  | number, v => v.isNumber
  | string, .str _ => true
  | array, .list _ => true
  | object, .dict _ => true
  | _, _ => false

namespace Schema

def propertyNames (schema : Schema) : List String :=
  schema.flatMap fun k =>
    match k with
    | .properties schemas => schemas.map Prod.fst
    | _ => []

def set (schema : Schema) (k : Keyword) : Schema :=
  if schema.any fun k' => k'.key = k.key then
    schema.map fun k' => if k'.key = k.key then k else k'
  else schema ++ [k]

end Schema

/-- What the references to components mean. -/
abbrev Components (α : Type) := String → Value α → Bool

variable (components : Components α)

mutual

/-- Whether a value meets a keyword, beside `properties` of some names. -/
def Keyword.valid (names : List String) : Keyword → Value α → Bool
  | .type t, v => t.holds v
  | .enum values, v => v.isIn false values
  | .properties schemas, v =>
    match v with
    | .dict entries => entries.all fun e => validProperty schemas e.1 e.2
    | _ => true
  | .additionalProperties schema, v =>
    match v with
    | .dict entries => entries.all fun e =>
        (names.any fun name => e.1 = .text name) ||
          validKeywords (Schema.propertyNames schema) schema e.2
    | _ => true
  | .items schema, v =>
    match v with
    | .list items => items.all fun item => validKeywords (Schema.propertyNames schema) schema item
    | _ => true
  | .required required, v =>
    match v with
    | .dict entries => required.all fun name => (Value.lookup entries name).isSome
    | _ => true
  | .anyOf schemas, v => validSome schemas v
  | .ref component, v => components component v
  | .minimum bound, v => !v.isNumber || v.lessThan bound != some true
  | .maximum bound, v => !v.isNumber || v.greaterThan bound != some true
  | .minLength bound, v =>
    match v with
    | .str s => bound ≤ s.points.length
    | _ => true
  | .maxLength bound, v =>
    match v with
    | .str s => s.points.length ≤ bound
    | _ => true
  | .default _, _ | .description _, _ | .format _, _ | .extension _ _, _ => true

def validKeywords (names : List String) : List Keyword → Value α → Bool
  | [], _ => true
  | k :: keywords, v => k.valid names v && validKeywords names keywords v

def validSome : List (List Keyword) → Value α → Bool
  | [], _ => false
  | schema :: schemas, v =>
    validKeywords (Schema.propertyNames schema) schema v || validSome schemas v

/-- Whether a value meets the schema of the property of its name, if there is one. -/
def validProperty : List (String × List Keyword) → PyStr → Value α → Bool
  | [], _, _ => true
  | (name, schema) :: schemas, key, v =>
    if key = .text name then validKeywords (Schema.propertyNames schema) schema v
    else validProperty schemas key v

end

namespace Schema

def valid (schema : Schema) (v : Value α) : Bool :=
  validKeywords components schema.propertyNames schema v

end Schema

/-! ### Schemas that are put together -/

variable {components} {names : List String} {v : Value α}

theorem validKeywords_append (schema schema' : Schema) :
    validKeywords components names (schema ++ schema') v =
      (validKeywords components names schema v && validKeywords components names schema' v) := by
  induction schema with
  | nil => simp [validKeywords]
  | cons k schema ih => rw [List.cons_append, validKeywords, validKeywords, ih, Bool.and_assoc]

theorem validProperty_of_mem {schemas : List (String × Schema)} {name : String} {schema : Schema}
    (hnodup : (schemas.map Prod.fst).Nodup) (h : (name, schema) ∈ schemas) :
    validProperty components schemas (.text name) v = schema.valid components v := by
  induction schemas with
  | nil => cases h
  | cons head schemas ih =>
    obtain ⟨name', schema'⟩ := head
    rw [List.map_cons, List.nodup_cons] at hnodup
    rw [validProperty]
    rcases List.mem_cons.mp h with heq | hmem
    · cases heq
      exact if_pos rfl
    · have hne : name ≠ name' := by
        rintro rfl
        exact hnodup.1 (List.mem_map.mpr ⟨(name, schema), hmem, rfl⟩)
      rw [if_neg (by simpa using hne), ih hnodup.2 hmem]

theorem validKeywords_iff (schema : Schema) : validKeywords components names schema v ↔
    ∀ k ∈ schema, k.valid components names v := by
  induction schema with
  | nil => simp [validKeywords]
  | cons k schema ih => simp [validKeywords, ih]

namespace Schema

def without (schema : Schema) (keys : List String) : Schema := schema.filter fun k => k.key ∉ keys

theorem validKeywords_set (schema : Schema) (k : Keyword) (keys : List String) (h : k.key ∉ keys) :
    (validKeywords components names ((schema.set k).without keys) v ↔
      validKeywords components names (schema.without (k.key :: keys)) v ∧
        k.valid components names v) := by
  simp only [validKeywords_iff, without, List.mem_filter, decide_eq_true_eq, List.mem_cons, not_or]
  unfold set
  split_ifs with hany
  · obtain ⟨k₀, hk₀, hkey₀⟩ : ∃ k₀ ∈ schema, k₀.key = k.key := by simpa using hany
    constructor
    · intro hall
      constructor
      · rintro k' ⟨hmem, hne, hkeys⟩
        refine hall k' ⟨List.mem_map.mpr ⟨k', hmem, if_neg hne⟩, hkeys⟩
      · exact hall k ⟨List.mem_map.mpr ⟨k₀, hk₀, if_pos hkey₀⟩, h⟩
    · rintro ⟨hall, hk⟩ k' ⟨hmem, hkeys⟩
      obtain ⟨k₁, hk₁, rfl⟩ := List.mem_map.mp hmem
      by_cases hkey : k₁.key = k.key
      · rw [if_pos hkey]
        exact hk
      · rw [if_neg hkey] at hkeys ⊢
        exact hall k₁ ⟨hk₁, hkey, hkeys⟩
  · have hnone : ∀ k' ∈ schema, k'.key ≠ k.key := by simpa using hany
    constructor
    · intro hall
      exact ⟨fun k' ⟨hmem, _, hkeys⟩ => hall k' ⟨List.mem_append_left _ hmem, hkeys⟩,
        hall k ⟨List.mem_append_right _ (List.mem_singleton_self k), h⟩⟩
    · rintro ⟨hall, hk⟩ k' ⟨hmem, hkeys⟩
      rcases List.mem_append.mp hmem with hmem | hmem
      · exact hall k' ⟨hmem, hnone k' hmem, hkeys⟩
      · rw [List.mem_singleton.mp hmem]
        exact hk

/-- **Keywords that are set**: a value meets the schema that some keywords were set on where it meets
the keywords under other keys, and those that were set. -/
theorem validKeywords_foldl_set (keywords : List Keyword) (schema : Schema) (keys : List String)
    (hnodup : (keywords.map Keyword.key).Nodup) (hkeys : ∀ k ∈ keywords, k.key ∉ keys) :
    (validKeywords components names ((keywords.foldl set schema).without keys) v ↔
      validKeywords components names (schema.without (keywords.map Keyword.key ++ keys)) v ∧
        ∀ k ∈ keywords, k.valid components names v) := by
  induction keywords generalizing schema with
  | nil => simp
  | cons k keywords ih =>
    rw [List.map_cons, List.nodup_cons] at hnodup
    rw [List.forall_mem_cons] at hkeys
    rw [List.foldl_cons, ih (schema.set k) hnodup.2 hkeys.2,
      validKeywords_set schema k (keywords.map Keyword.key ++ keys) (by
        rw [List.mem_append, not_or]
        exact ⟨hnodup.1, hkeys.1⟩), List.forall_mem_cons, and_assoc]
    rfl

theorem forall_key_set (schema : Schema) (k : Keyword) (key : String) :
    (∀ k' ∈ schema.set k, k'.key ≠ key) ↔ (∀ k' ∈ schema, k'.key ≠ key) ∧ k.key ≠ key := by
  unfold set
  split_ifs with hany
  · obtain ⟨k₀, hk₀, hkey₀⟩ : ∃ k₀ ∈ schema, k₀.key = k.key := by simpa using hany
    rw [List.forall_mem_map]
    constructor
    · intro hall
      refine ⟨fun k' hk' heq => ?_, fun heq => ?_⟩
      · refine hall k' hk' ?_
        split_ifs with hkey
        · exact hkey ▸ heq
        · exact heq
      · refine hall k₀ hk₀ ?_
        rw [if_pos hkey₀]
        exact heq
    · rintro ⟨hall, hk⟩ k' hk'
      split_ifs
      · exact hk
      · exact hall k' hk'
  · rw [List.forall_mem_append, List.forall_mem_singleton]

theorem forall_key_foldl_set (keywords : List Keyword) (schema : Schema) (key : String) :
    (∀ k ∈ keywords.foldl set schema, k.key ≠ key) ↔
      (∀ k ∈ schema, k.key ≠ key) ∧ ∀ k ∈ keywords, k.key ≠ key := by
  induction keywords generalizing schema with
  | nil => simp
  | cons k keywords ih =>
    rw [List.foldl_cons, ih, forall_key_set, List.forall_mem_cons, and_assoc]

theorem propertyNames_singleton {k : Keyword} (h : k.key ≠ "properties") :
    propertyNames [k] = [] := by
  cases k with
  | properties schemas => exact absurd rfl h
  | _ => rfl

theorem propertyNames_cons (k : Keyword) (schema : Schema) :
    propertyNames (k :: schema) = propertyNames [k] ++ propertyNames schema := by
  simp [propertyNames]

theorem propertyNames_map (schema : Schema) {k : Keyword} (h : k.key ≠ "properties") :
    propertyNames (schema.map fun k' => if k'.key = k.key then k else k') =
      propertyNames schema := by
  induction schema with
  | nil => rfl
  | cons k' schema ih =>
    rw [List.map_cons, propertyNames_cons, propertyNames_cons k' schema, ih]
    split_ifs with hkey
    · rw [propertyNames_singleton h, propertyNames_singleton (hkey ▸ h)]
    · rfl

theorem propertyNames_set (schema : Schema) {k : Keyword} (h : k.key ≠ "properties") :
    (schema.set k).propertyNames = schema.propertyNames := by
  unfold set
  split_ifs
  · exact propertyNames_map schema h
  · rw [propertyNames, List.flatMap_append]
    exact (congrArg (_ ++ ·) (propertyNames_singleton h)).trans (List.append_nil _)

theorem propertyNames_foldl_set (keywords : List Keyword) (schema : Schema)
    (h : ∀ k ∈ keywords, k.key ≠ "properties") :
    (keywords.foldl set schema).propertyNames = schema.propertyNames := by
  induction keywords generalizing schema with
  | nil => rfl
  | cons k keywords ih =>
    rw [List.forall_mem_cons] at h
    rw [List.foldl_cons, ih _ h.2, propertyNames_set schema h.1]

end Schema

-- The equations of the recursive functions, for the proofs about them.
attribute [local simp] Keyword.valid validKeywords validSome validProperty

end ReactorRuntime.JsonSchema
