import ReactorRuntime.Interface.Contract

/-!
# What the contract accepts

`check` of a container is about what it holds (`check_list_eq_none`, `check_dict_eq_none`,
`check_dataclass_eq_none`).

`ModelContract.accepts_iff`: a command is accepted where the contract has it, it declares every
argument, and every field is content: its argument passes its checks, or it has a default.
-/

namespace ReactorRuntime.Interface

open ReactorRuntime.Python

/-! ### Types -/

theorem check_optional (inner : TypeSpec) {v : Argument} (h : v ≠ .none) :
    (TypeSpec.optional inner).check v = inner.check v := by
  cases v <;> first | exact absurd rfl h | rw [TypeSpec.check]; simp

theorem check_list_eq_none (item : TypeSpec) (items : List Argument) :
    (TypeSpec.list item).check (.list items) = none ↔ ∀ v ∈ items, item.check v = none := by
  rw [TypeSpec.check]
  simp only [List.findSome?_eq_none_iff, Option.map_eq_none_iff]
  constructor
  · intro h v hv
    obtain ⟨index, hindex, rfl⟩ := List.getElem_of_mem hv
    exact h (items[index], index) (List.mem_zipIdx_iff_getElem?.mpr (by simp [hindex]))
  · rintro h ⟨v, index⟩ hv
    exact h v (List.fst_mem_of_mem_zipIdx hv)

theorem check_dict_eq_none (spec : TypeSpec) (entries : List (PyStr × Argument)) :
    (TypeSpec.dict spec).check (.dict entries) = none ↔ ∀ e ∈ entries, spec.check e.2 = none := by
  rw [TypeSpec.check]
  simp only [List.findSome?_eq_none_iff, Option.map_eq_none_iff]

theorem check_dataclass_eq_none (fields : List (String × TypeSpec)) (required : List String)
    (entries : List (PyStr × Argument)) :
    (TypeSpec.dataclass fields required).check (.dict entries) = none ↔
      (∀ name ∈ required, (Value.lookup entries name).isSome) ∧
        ∀ e ∈ entries, TypeSpec.checkField fields e.1 e.2 = none := by
  rw [TypeSpec.check]
  cases hfind : required.find? fun name => (Value.lookup entries name).isNone with
  | some name =>
    have hname := List.find?_some hfind
    have hmem := List.mem_of_find?_eq_some hfind
    simp only [reduceCtorEq, false_iff, not_and]
    intro hall
    have hsome := hall name hmem
    rw [Option.isNone_iff_eq_none.mp hname] at hsome
    cases hsome
  | none =>
    have hall : ∀ name ∈ required, (Value.lookup entries name).isSome := by
      intro name hname
      have hnot := List.find?_eq_none.mp hfind name hname
      simpa [Option.isSome_iff_ne_none] using hnot
    simp only [List.findSome?_eq_none_iff, Option.map_eq_none_iff]
    exact ⟨fun h => ⟨hall, h⟩, fun h => h.2⟩

/-! ### Fields and commands -/

def CommandField.Passes (field : CommandField) (value : Argument) : Prop :=
  field.spec.check value = none ∧ validateField value field.info = none

def Content (rawArgs : Arguments) (field : String × CommandField) : Prop :=
  (Value.lookup rawArgs field.1 = none → field.2.info.default.isSome) ∧
    ∀ value, Value.lookup rawArgs field.1 = some value → field.2.Passes value

theorem checkArgument_ok_iff (rawArgs : Arguments) (field : String × CommandField) :
    (∃ arg, checkArgument rawArgs field = .ok arg) ↔ Content rawArgs field := by
  unfold checkArgument Content CommandField.Passes
  cases Value.lookup rawArgs field.1 with
  | none =>
    cases field.2.info.default with
    | none => simp
    | some default => simp
  | some value =>
    cases hcheck : field.2.spec.check value with
    | some reason => simp [hcheck]
    | none =>
      cases hvalidate : validateField value field.2.info with
      | some violation => simp [hcheck, hvalidate]
      | none => simp [hcheck, hvalidate]

theorem mapM_ok_iff {ε β γ : Type} (f : β → Except ε γ) (l : List β) :
    (∃ l', l.mapM f = .ok l') ↔ ∀ b ∈ l, ∃ c, f b = .ok c := by
  induction l with
  | nil => exact ⟨fun _ b hb => absurd hb List.not_mem_nil, fun _ => ⟨[], rfl⟩⟩
  | cons b l ih =>
    rw [List.mapM_cons, List.forall_mem_cons, ← ih]
    cases hb : f b with
    | error e => exact ⟨fun ⟨l', hl'⟩ => (nomatch hl'), fun ⟨⟨c, hc⟩, _⟩ => (nomatch hc)⟩
    | ok c =>
      cases hl : l.mapM f with
      | error e => exact ⟨fun ⟨l', hl'⟩ => (nomatch hl'), fun ⟨_, l', hl'⟩ => (nomatch hl')⟩
      | ok l' => exact ⟨fun _ => ⟨⟨c, rfl⟩, l', rfl⟩, fun _ => ⟨c :: l', rfl⟩⟩

theorem ModelContract.accepts_iff (contract : ModelContract) (name : String) (rawArgs : Arguments) :
    contract.Accepts name rawArgs ↔ ∃ spec, contract.command? name = some spec ∧
      (∀ arg ∈ rawArgs, spec.declares arg.1) ∧ ∀ field ∈ spec.fields, Content rawArgs field := by
  unfold ModelContract.Accepts ModelContract.validate
  cases contract.command? name with
  | none => simp
  | some spec =>
    cases hfind : rawArgs.find? fun arg => !spec.declares arg.1 with
    | some arg =>
      have harg := List.find?_some hfind
      have hmem := List.mem_of_find?_eq_some hfind
      simp only [Bool.not_eq_eq_eq_not, Bool.not_true] at harg
      constructor
      · rintro ⟨args, hargs⟩
        simp [hfind] at hargs
      · rintro ⟨spec', hspec', hdeclared, -⟩
        cases hspec'
        rw [hdeclared arg hmem] at harg
        cases harg
    | none =>
      have hdeclared : ∀ arg ∈ rawArgs, spec.declares arg.1 := by
        simpa using List.find?_eq_none.mp hfind
      have hcontent := mapM_ok_iff (checkArgument rawArgs) spec.fields
      simp only [checkArgument_ok_iff] at hcontent
      constructor
      · rintro ⟨args, hargs⟩
        simp only [hfind] at hargs
        cases hmapM : spec.fields.mapM (checkArgument rawArgs) with
        | error e => simp [hmapM, Except.map] at hargs
        | ok checked => exact ⟨spec, rfl, hdeclared, hcontent.mp ⟨checked, hmapM⟩⟩
      · rintro ⟨spec', hspec', -, hall⟩
        cases hspec'
        obtain ⟨checked, hchecked⟩ := hcontent.mpr hall
        exact ⟨_, by simp only [hfind, hchecked]; rfl⟩

end ReactorRuntime.Interface
