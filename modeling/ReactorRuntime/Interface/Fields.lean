import ReactorRuntime.Interface.TypeSpec

/-!
# Field constraints

`FieldInfo`, what `InputField` attaches to a field, and `validate_field`, which says which constraint
a value violates first.  The bounds are numbers, compared by value.

Left out: the check of the default when a field is declared.
-/

namespace ReactorRuntime.Interface

open ReactorRuntime.Python

structure FieldInfo where
  default : Option Json := none
  description : Option String := none
  ge : Option ℚ := none
  le : Option ℚ := none
  minLength : Option ℤ := none
  maxLength : Option ℤ := none
  choices : Option (List Json) := none
  moderate : Bool := false

inductive Violation where
  /-- "{value!r} not in choices {choices}". -/
  | notInChoices (value : Argument) (choices : List Json)
  /-- "{value} < ge({ge})". -/
  | below (value : Argument) (ge : ℚ)
  /-- "{value!r} is not comparable to ge({ge})". -/
  | notComparableToGe (value : Argument) (ge : ℚ)
  /-- "{value} > le({le})". -/
  | above (value : Argument) (le : ℚ)
  /-- "{value!r} is not comparable to le({le})". -/
  | notComparableToLe (value : Argument) (le : ℚ)
  /-- "length {length} < min_length({minLength})". -/
  | tooShort (length : ℕ) (minLength : ℤ)
  /-- "{value!r} has no length for min_length({minLength})". -/
  | noMinLength (value : Argument) (minLength : ℤ)
  /-- "length {length} > max_length({maxLength})". -/
  | tooLong (length : ℕ) (maxLength : ℤ)
  /-- "{value!r} has no length for max_length({maxLength})". -/
  | noMaxLength (value : Argument) (maxLength : ℤ)

namespace FieldInfo

variable (info : FieldInfo) (value : Argument)

def checkChoices : Option Violation :=
  info.choices.bind fun choices =>
    if value.isIn true choices then none else some (.notInChoices value choices)

def checkGe : Option Violation :=
  info.ge.bind fun ge =>
    match value.lessThan ge with
    | some true => some (.below value ge)
    | some false => none
    | none => some (.notComparableToGe value ge)

def checkLe : Option Violation :=
  info.le.bind fun le =>
    match value.greaterThan le with
    | some true => some (.above value le)
    | some false => none
    | none => some (.notComparableToLe value le)

def checkMinLength : Option Violation :=
  info.minLength.bind fun minLength =>
    match value.length with
    | some length => if length < minLength then some (.tooShort length minLength) else none
    | none => some (.noMinLength value minLength)

def checkMaxLength : Option Violation :=
  info.maxLength.bind fun maxLength =>
    match value.length with
    | some length => if length > maxLength then some (.tooLong length maxLength) else none
    | none => some (.noMaxLength value maxLength)

end FieldInfo

def validateField (value : Argument) (info : FieldInfo) : Option Violation :=
  ((((info.checkChoices value).or (info.checkGe value)).or (info.checkLe value)).or
    (info.checkMinLength value)).or (info.checkMaxLength value)

theorem validateField_eq_none {value : Argument} {info : FieldInfo} :
    validateField value info = none ↔
      info.checkChoices value = none ∧ info.checkGe value = none ∧ info.checkLe value = none ∧
        info.checkMinLength value = none ∧ info.checkMaxLength value = none := by
  simp only [validateField, Option.or_eq_none_iff, and_assoc]

end ReactorRuntime.Interface
