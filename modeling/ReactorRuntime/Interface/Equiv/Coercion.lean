import ReactorRuntime.Interface.Coercion
import ReactorRuntime.Interface.Equiv.Contract
import Mathlib.Data.List.Nodup
import Mathlib.Data.List.ReduceOption

/-!
# The types of coerced arguments

Every number of an argument that came over the wire is a float (`overWire`).  Coercing an accepted
one never fails (`coerce_of_check`) and changes nothing the second time (`coerce_coerced`), but what
it returns is of the declared types (`typed`) only where no position is left out (`kept`): a literal
that is a number, or a boolean declared as one, and whatever is to be narrowed or looked up inside a
dataclass, stay as they came.  `kwargs_typed_iff` says so of the arguments of a command.
-/

namespace ReactorRuntime.Interface

open ReactorRuntime.Python

/-! ### The values that come over the wire -/

mutual

/-- Whether every number of a value is a float. -/
def overWire : Argument → Bool
  | .int _ => false
  | .list items => overWireItems items
  | .dict entries => overWireEntries entries
  | .none | .bool _ | .float _ | .str _ | .object _ => true

/-- Whether every number in some items is a float. -/
def overWireItems : List Argument → Bool
  | [] => true
  | v :: items => overWire v && overWireItems items

/-- Whether every number in some entries is a float. -/
def overWireEntries : List (PyStr × Argument) → Bool
  | [] => true
  | (_, v) :: entries => overWire v && overWireEntries entries

end

theorem overWireItems_eq_true_iff (items : List Argument) :
    overWireItems items = true ↔ ∀ v ∈ items, overWire v = true := by
  induction items with
  | nil => simp [overWireItems]
  | cons v items ih => rw [overWireItems, Bool.and_eq_true, ih, List.forall_mem_cons]

theorem overWireEntries_eq_true_iff (entries : List (PyStr × Argument)) :
    overWireEntries entries = true ↔ ∀ e ∈ entries, overWire e.2 = true := by
  induction entries with
  | nil => simp [overWireEntries]
  | cons e entries ih =>
    obtain ⟨key, v⟩ := e
    rw [overWireEntries, Bool.and_eq_true, ih, List.forall_mem_cons]

theorem ofItems_eq_map (items : List Argument) : ofItems items = items.map ofArgument := by
  induction items with
  | nil => rfl
  | cons v items ih => rw [ofItems, ih, List.map_cons]

theorem ofEntries_eq_map (entries : List (PyStr × Argument)) :
    ofEntries entries = entries.map fun e => (e.1, ofArgument e.2) := by
  induction entries with
  | nil => rfl
  | cons e entries ih =>
    obtain ⟨key, v⟩ := e
    rw [ofEntries, ih, List.map_cons]

def sameClass {α β : Type} : Value α → Value β → Bool
  | .none, .none | .bool _, .bool _ | .int _, .int _ | .float _, .float _ | .str _, .str _
  | .list _, .list _ | .dict _, .dict _ => true
  | _, _ => false

theorem numeral_ofArgument (bools : Bool) (v : Argument) :
    (ofArgument v).numeral bools = v.numeral bools := by
  cases v with
  | float x => cases x <;> rfl
  | _ => rfl

theorem sameNumber_ofArgument (bools : Bool) (v : Argument) (w : Json) :
    (ofArgument v).sameNumber bools w = v.sameNumber bools w := by
  rw [Value.sameNumber, Value.sameNumber, numeral_ofArgument]

theorem sameClass_ofArgument (v : Argument) (w : Json) :
    sameClass (ofArgument v) w = sameClass v w := by
  cases v <;> cases w <;> rfl

mutual

theorem equals_ofArgument (bools : Bool) : ∀ (v : Argument) (w : Json),
    (ofArgument v).equals bools w = v.equals bools w
  | .list items, w => by
    cases w with
    | list items' => exact equalsItems_ofItems bools items items'
    | _ => rfl
  | .dict entries, w => by
    cases w with
    | dict entries' =>
      rw [ofArgument, Value.equals, Value.equals, equalsEntries_ofEntries bools entries entries',
        ofEntries_eq_map, List.length_map]
    | _ => rfl
  | .none, w | .bool _, w | .str _, w | .int _, w | .object _, w => by cases w <;> rfl
  | .float x, w => by
    rw [ofArgument, Value.equals_float, Value.equals_float]
    exact sameNumber_ofArgument bools (.float x) w

theorem equalsItems_ofItems (bools : Bool) : ∀ (items : List Argument) (items' : List Json),
    Value.equalsItems bools (ofItems items) items' = Value.equalsItems bools items items'
  | [], [] => rfl
  | [], _ :: _ => rfl
  | _ :: _, [] => rfl
  | v :: items, w :: items' => by
    rw [ofItems, Value.equalsItems, Value.equalsItems, equals_ofArgument bools v w,
      equalsItems_ofItems bools items items']

theorem equalsEntries_ofEntries (bools : Bool) : ∀ (entries : List (PyStr × Argument))
    (entries' : List (PyStr × Json)),
      Value.equalsEntries bools (ofEntries entries) entries' =
        Value.equalsEntries bools entries entries'
  | [], _ => rfl
  | (key, v) :: entries, entries' => by
    rw [ofEntries, Value.equalsEntries, Value.equalsEntries,
      equalsEntries_ofEntries bools entries entries']
    cases entries'.find? fun e => e.1 = key with
    | none => rfl
    | some e =>
      show ((ofArgument v).equals bools e.2 && _) = (v.equals bools e.2 && _)
      rw [equals_ofArgument bools v e.2]

end

/-! ### What the declared types demand -/

/-- Whether a value is an instance of a primitive type; a boolean is no integer. -/
def Primitive.holds : Primitive → Coerced → Bool
  | .bool, .bool _ | .int, .int _ | .float, .float _ | .str, .str _ => true
  | _, _ => false

def hasLiteral {α : Type} (values : List Json) (v : Value α) : Bool :=
  values.any fun w => v.equals true w && sameClass v w

mutual

/-- Whether a value has the type of each position in it. -/
def typed : TypeSpec → Coerced → Bool
  | .any, _ | .upload, _ => true
  | .primitive pyType, v => pyType.holds v
  | .literal values, v => hasLiteral values v
  | .enum name members, v =>
    match v with
    | .object (.member enum index) => enum = name && index < members.length
    | _ => false
  | .list item, v =>
    match v with
    | .list items => items.all fun v => typed item v
    | _ => false
  | .dict spec, v =>
    match v with
    | .dict entries => entries.all fun e => typed spec e.2
    | _ => false
  | .dataclass fields _, v =>
    match v with
    | .dict entries => entries.all fun e => typedField fields e.1 e.2
    | _ => false
  | .optional inner, v =>
    match v with
    | .none => true
    | v => typed inner v

/-- Whether an entry of a dataclass has the type of the field of its name, if there is one. -/
def typedField : List (String × TypeSpec) → PyStr → Coerced → Bool
  | [], _, _ => true
  | (name, spec) :: fields, key, v =>
    if key = .text name then typed spec v else typedField fields key v

end

/-! ### What is left as it came -/

/-- Whether a literal of a value's own class is declared, where a number or a boolean may equal one
of another class. -/
def declared (values : List Json) (v : Argument) : Bool :=
  match v with
  | .float _ | .bool _ => hasLiteral values v
  | _ => true

mutual

/-- Whether a value has no position that its type leaves as it came: `nested` inside a dataclass,
where nothing is narrowed to an integer or looked up in an enumeration. -/
def kept (nested : Bool) : TypeSpec → Argument → Bool
  | .any, _ | .upload, _ => true
  | .primitive pyType, _ => !(nested && pyType = .int)
  | .literal values, v => declared values v
  | .enum _ _, _ => !nested
  | .list item, v =>
    match v with
    | .list items => items.all fun v => kept nested item v
    | _ => true
  | .dict spec, v =>
    match v with
    | .dict entries => entries.all fun e => kept nested spec e.2
    | _ => true
  | .dataclass fields _, v =>
    match v with
    | .dict entries => entries.all fun e => keptField fields e.1 e.2
    | _ => true
  | .optional inner, v =>
    match v with
    | .none => true
    | v => kept nested inner v

/-- Whether an entry of a dataclass has no such position. -/
def keptField : List (String × TypeSpec) → PyStr → Argument → Bool
  | [], _, _ => true
  | (name, spec) :: fields, key, v =>
    if key = .text name then kept true spec v else keptField fields key v

end

/-! ### Literals -/

theorem hasLiteral_ofArgument (values : List Json) (v : Argument) :
    hasLiteral values (ofArgument v) = hasLiteral values v := by
  unfold hasLiteral
  refine congrArg _ (funext fun w => ?_)
  rw [equals_ofArgument, sameClass_ofArgument]

theorem sameClass_of_equals {v : Argument} {w : Json} (h : v.equals true w = true)
    (hfloat : ∀ x, v ≠ .float x) (hint : ∀ n, v ≠ .int n) (hbool : ∀ b, v ≠ .bool b) :
    sameClass v w = true := by
  cases v with
  | float x => exact (hfloat x rfl).elim
  | int n => exact (hint n rfl).elim
  | bool b => exact (hbool b rfl).elim
  | object file => cases w <;> cases h
  | _ => cases w <;> first | rfl | cases h

theorem hasLiteral_of_isIn {values : List Json} {v : Argument} (hwire : overWire v = true)
    (h : v.isIn true values = true) : hasLiteral values v = declared values v := by
  obtain ⟨w, hw, heq⟩ := List.any_eq_true.mp h
  have hhas : (∀ x, v ≠ .float x) → (∀ n, v ≠ .int n) → (∀ b, v ≠ .bool b) →
      hasLiteral values v = true := by
    intro hfloat hint hbool
    have hclass := sameClass_of_equals heq hfloat hint hbool
    exact List.any_eq_true.mpr ⟨w, hw, by rw [heq, hclass]; rfl⟩
  cases v with
  | float x => rfl
  | bool b => rfl
  | int n => cases hwire
  | _ => exact hhas (fun _ h => by cases h) (fun _ h => by cases h) (fun _ h => by cases h)

/-! ### Inside a dataclass -/

theorem typed_dataclass (fields : List (String × TypeSpec)) (required : List String)
    (entries : List (PyStr × Argument)) :
    typed (.dataclass fields required) (ofArgument (.dict entries)) =
      entries.all fun e => typedField fields e.1 (ofArgument e.2) := by
  rw [ofArgument, typed, ofEntries_eq_map, List.all_map]
  rfl

theorem all_congr_of_mem {β : Type} {l : List β} {p q : β → Bool} (h : ∀ b ∈ l, p b = q b) :
    l.all p = l.all q := by
  induction l with
  | nil => rfl
  | cons b l ih =>
    rw [List.all_cons, List.all_cons, h b List.mem_cons_self,
      ih fun b hb => h b (List.mem_cons_of_mem _ hb)]

theorem eq_finite_of_isIntegral {v : Argument} (hwire : overWire v = true)
    (h : v.isIntegral = true) : ∃ x, v = .float (.finite x) := by
  cases v with
  | int n => cases hwire
  | float x =>
    cases x with
    | finite x => exact ⟨x, rfl⟩
    | inf negative => cases h
    | nan => cases h
  | _ => cases h

theorem holds_ofArgument {pyType : Primitive} {v : Argument} (hwire : overWire v = true)
    (hcheck : pyType.isInstance v = true) :
    pyType.holds (ofArgument v) = !(true && decide (pyType = .int)) := by
  cases pyType with
  | int =>
    obtain ⟨x, rfl⟩ := eq_finite_of_isIntegral hwire hcheck
    rfl
  | bool => cases v <;> first | rfl | cases hcheck
  | float =>
    cases v with
    | float x => rfl
    | int n => cases hwire
    | _ => cases hcheck
  | str => cases v <;> first | rfl | cases hcheck

theorem isInstance_of_check {pyType : Primitive} {v : Argument}
    (h : (TypeSpec.primitive pyType).check v = none) : pyType.isInstance v = true := by
  rw [TypeSpec.check] at h
  by_contra hnot
  rw [if_neg hnot] at h
  cases h

theorem isIn_of_check_literal {values : List Json} {v : Argument}
    (h : (TypeSpec.literal values).check v = none) : v.isIn true values = true := by
  rw [TypeSpec.check] at h
  by_contra hnot
  rw [if_neg hnot] at h
  cases h

theorem isIn_of_check_enum {name : String} {members : List Json} {v : Argument}
    (h : (TypeSpec.enum name members).check v = none) : v.isIn true members = true := by
  rw [TypeSpec.check] at h
  by_contra hnot
  rw [if_neg hnot] at h
  cases h

mutual

theorem typed_ofArgument : ∀ (spec : TypeSpec) (v : Argument), overWire v = true →
    spec.check v = none → typed spec (ofArgument v) = kept true spec v
  | .any, _, _, _ => rfl
  | .upload, _, _, _ => rfl
  | .primitive pyType, v, hwire, hcheck => by
    rw [typed, kept]
    exact holds_ofArgument hwire (isInstance_of_check hcheck)
  | .literal values, v, hwire, hcheck => by
    rw [typed, kept, hasLiteral_ofArgument]
    exact hasLiteral_of_isIn hwire (isIn_of_check_literal hcheck)
  | .enum name members, v, _, hcheck => by
    -- what is accepted is no member, as no member comes over the wire
    cases v <;> rfl
  | .list item, v, hwire, hcheck => by
    cases v with
    | list items =>
      have hitems := (check_list_eq_none item items).mp hcheck
      have hwires := (overWireItems_eq_true_iff items).mp hwire
      rw [ofArgument, typed, kept, ofItems_eq_map, List.all_map]
      exact all_congr_of_mem fun v hv => typed_ofArgument item v (hwires v hv) (hitems v hv)
    | _ => cases hcheck
  | .dict spec, v, hwire, hcheck => by
    cases v with
    | dict entries =>
      have hentries := (check_dict_eq_none spec entries).mp hcheck
      have hwires := (overWireEntries_eq_true_iff entries).mp hwire
      rw [ofArgument, typed, kept, ofEntries_eq_map, List.all_map]
      exact all_congr_of_mem fun e he => typed_ofArgument spec e.2 (hwires e he) (hentries e he)
    | _ => cases hcheck
  | .dataclass fields required, v, hwire, hcheck => by
    cases v with
    | dict entries =>
      have hentries := ((check_dataclass_eq_none fields required entries).mp hcheck).2
      have hwires := (overWireEntries_eq_true_iff entries).mp hwire
      rw [typed_dataclass, kept]
      exact all_congr_of_mem fun e he =>
        typedField_ofArgument fields e.1 e.2 (hwires e he) (hentries e he)
    | _ => cases hcheck
  | .optional inner, v, hwire, hcheck => by
    cases v with
    | none => rfl
    | _ => exact typed_ofArgument inner _ hwire hcheck

theorem typedField_ofArgument : ∀ (fields : List (String × TypeSpec)) (key : PyStr) (v : Argument),
    overWire v = true → TypeSpec.checkField fields key v = none →
      typedField fields key (ofArgument v) = keptField fields key v
  | [], _, _, _, _ => rfl
  | (name, spec) :: fields, key, v, hwire, hcheck => by
    rw [TypeSpec.checkField] at hcheck
    rw [typedField, keptField]
    by_cases hkey : key = .text name
    · rw [if_pos hkey] at hcheck
      rw [if_pos hkey, if_pos hkey]
      exact typed_ofArgument spec v hwire hcheck
    · rw [if_neg hkey] at hcheck
      rw [if_neg hkey, if_neg hkey]
      exact typedField_ofArgument fields key v hwire hcheck

end

/-! ### Coercion -/

/-- The results of a traversal are those of the members. -/
theorem mem_mapM_iff {ε β γ : Type} {f : β → Except ε γ} {l : List β} {l' : List γ}
    (h : l.mapM f = .ok l') (c : γ) : c ∈ l' ↔ ∃ b ∈ l, f b = .ok c := by
  induction l generalizing l' with
  | nil =>
    obtain rfl := Except.ok.inj h
    simp
  | cons b l ih =>
    rw [List.mapM_cons] at h
    cases hb : f b with
    | error e =>
      rw [hb] at h
      cases h
    | ok d =>
      cases hl : l.mapM f with
      | error e =>
        rw [hb, hl] at h
        cases h
      | ok ds =>
        rw [hb, hl] at h
        obtain rfl := Except.ok.inj h
        have hd : f b = .ok c ↔ c = d := by
          rw [hb]
          exact ⟨fun h => (Except.ok.inj h).symm, fun h => h ▸ rfl⟩
        rw [List.exists_mem_cons_iff, hd, ← ih hl, List.mem_cons]

/-- A traversal that changes no member. -/
theorem mapM_eq_self {ε β : Type} {f : β → Except ε β} {l : List β} (h : ∀ b ∈ l, f b = .ok b) :
    l.mapM f = .ok l := by
  induction l with
  | nil => rfl
  | cons b l ih =>
    rw [List.mapM_cons, h b List.mem_cons_self, ih fun b hb => h b (List.mem_cons_of_mem _ hb)]
    rfl

theorem except_map_eq_ok {ε β γ : Type} {f : β → γ} {x : Except ε β} {c : γ}
    (h : x.map f = .ok c) : ∃ b, x = .ok b ∧ f b = c := by
  cases x with
  | error e => cases h
  | ok b => exact ⟨b, rfl, Except.ok.inj h⟩

/-- A traversal in which every member succeeds, with a test of each result. -/
theorem exists_mapM {ε β γ : Type} {f : β → Except ε γ} {p : γ → Bool} {q : β → Bool} (l : List β)
    (h : ∀ b ∈ l, ∃ c, f b = .ok c ∧ p c = q b) :
    ∃ l', l.mapM f = .ok l' ∧ l'.all p = l.all q := by
  induction l with
  | nil => exact ⟨[], rfl, rfl⟩
  | cons b l ih =>
    obtain ⟨c, hc, hpc⟩ := h b List.mem_cons_self
    obtain ⟨cs, hcs, hpcs⟩ := ih fun b hb => h b (List.mem_cons_of_mem _ hb)
    refine ⟨c :: cs, ?_, ?_⟩
    · rw [List.mapM_cons, hc, hcs]
      rfl
    · rw [List.all_cons, List.all_cons, hpc, hpcs]

theorem isIn_ofArgument {v : Argument} {members : List Json} (h : v.isIn true members = true) :
    ∃ index, (members.findIdx? fun member => (ofArgument v).equals true member) = some index ∧
      index < members.length := by
  obtain ⟨w, hw, heq⟩ := List.any_eq_true.mp h
  have hsome : (members.findIdx? fun member => (ofArgument v).equals true member).isSome := by
    rw [List.findIdx?_isSome, List.any_eq_true]
    exact ⟨w, hw, by rw [equals_ofArgument, heq]⟩
  obtain ⟨index, hindex⟩ := Option.isSome_iff_exists.mp hsome
  exact ⟨index, hindex, (List.findIdx?_eq_some_iff_findIdx_eq.mp hindex).1⟩

theorem enumMember_eq_elim (name : String) (members : List Json) {v : Coerced}
    (h : ∀ enum index, v ≠ .object (.member enum index)) :
    enumMember name members v =
      (members.findIdx? fun member => v.equals true member).elim (.error .valueError)
        fun index => .ok (.object (.member name index)) := by
  have hfound : ∀ w : Coerced, (∀ enum index, w ≠ .object (.member enum index)) →
      ∀ found, (members.findIdx? fun member => w.equals true member) = found →
        enumMember name members w =
          found.elim (.error .valueError) fun index => .ok (.object (.member name index)) := by
    intro w hw found heq
    rw [enumMember.eq_def]
    cases w with
    | object a =>
      cases a with
      | member enum index => exact absurd rfl (hw enum index)
      | file file => cases found <;> simp only [heq, Option.elim]
    | _ => cases found <;> simp only [heq, Option.elim]
  exact hfound v h _ rfl

/-- What came over the wire is no member yet, so that it is looked up. -/
theorem enumMember_ofArgument (name : String) (members : List Json) {v : Argument}
    (h : v.isIn true members = true) :
    ∃ index, enumMember name members (ofArgument v) = .ok (.object (.member name index)) ∧
      index < members.length := by
  obtain ⟨index, hindex, hlt⟩ := isIn_ofArgument h
  refine ⟨index, ?_, hlt⟩
  have hplain : ∀ enum index, ofArgument v ≠ .object (.member enum index) := by
    intro enum index
    cases v <;> simp [ofArgument]
  rw [enumMember_eq_elim name members hplain, hindex]
  rfl

theorem coerce_optional (inner : TypeSpec) {v : Coerced} (h : v ≠ .none) :
    (TypeSpec.optional inner).coerce v = inner.coerce v := by
  cases v <;> first | exact absurd rfl h | rfl

theorem typed_optional (inner : TypeSpec) {v : Coerced} (h : v ≠ .none) :
    typed (.optional inner) v = typed inner v := by
  cases v <;> first | exact absurd rfl h | rfl

theorem kept_optional (inner : TypeSpec) {nested : Bool} {v : Argument} (h : v ≠ .none) :
    kept nested (.optional inner) v = kept nested inner v := by
  cases v <;> first | exact absurd rfl h | rfl

theorem enumMember_eq_ok {name : String} {members : List Json} {v w : Coerced}
    (h : enumMember name members v = .ok w) : ∃ index, w = .object (.member name index) := by
  by_cases hmember : ∃ enum index, v = .object (.member enum index)
  · obtain ⟨enum, index, rfl⟩ := hmember
    rw [enumMember] at h
    by_cases henum : enum = name
    · rw [if_pos henum, henum] at h
      exact ⟨index, (Except.ok.inj h).symm⟩
    · rw [if_neg henum] at h
      cases h
  · rw [enumMember_eq_elim name members fun enum index hv => hmember ⟨enum, index, hv⟩] at h
    cases hfound : members.findIdx? fun member => v.equals true member with
    | none =>
      rw [hfound] at h
      cases h
    | some index =>
      rw [hfound] at h
      exact ⟨index, (Except.ok.inj h).symm⟩

theorem eq_none_of_coerce : ∀ (spec : TypeSpec) (v : Coerced), spec.coerce v = .ok .none → v = .none
  | .any, _, h | .upload, _, h | .literal _, _, h | .dataclass _ _, _, h => Except.ok.inj h
  | .primitive pyType, v, h => by
    cases pyType with
    | int =>
      cases v with
      | float x =>
        obtain ⟨n, -, hn⟩ := except_map_eq_ok h
        cases hn
      | _ => exact Except.ok.inj h
    | _ => exact Except.ok.inj h
  | .enum name members, v, h => by
    obtain ⟨index, hindex⟩ := enumMember_eq_ok h
    cases hindex
  | .list item, v, h => by
    rw [TypeSpec.coerce] at h
    cases hitems : iterate v with
    | error e =>
      rw [hitems] at h
      cases h
    | ok items =>
      rw [hitems] at h
      obtain ⟨ws, -, hws⟩ := except_map_eq_ok h
      cases hws
  | .dict spec, v, h => by
    rw [TypeSpec.coerce] at h
    cases hentries : v.items with
    | error e =>
      rw [hentries] at h
      cases h
    | ok entries =>
      rw [hentries] at h
      obtain ⟨ws, -, hws⟩ := except_map_eq_ok h
      cases hws
  | .optional inner, v, h => by
    by_cases hnone : v = .none
    · exact hnone
    · rw [coerce_optional inner hnone] at h
      exact eq_none_of_coerce inner v h

/-- An accepted value is coerced, to the declared types where no position is left as it came. -/
theorem coerce_of_check : ∀ (spec : TypeSpec) (v : Argument), overWire v = true →
    spec.check v = none →
      ∃ w, spec.coerce (ofArgument v) = .ok w ∧ typed spec w = kept false spec v
  | .any, v, _, _ => ⟨ofArgument v, rfl, rfl⟩
  | .upload, v, _, _ => ⟨ofArgument v, rfl, rfl⟩
  | .primitive pyType, v, hwire, hcheck => by
    have hinstance := isInstance_of_check hcheck
    have hkept : kept false (.primitive pyType) v = true := rfl
    rw [TypeSpec.coerce, hkept]
    by_cases hint : pyType = .int
    · rw [hint] at hinstance ⊢
      obtain ⟨x, rfl⟩ := eq_finite_of_isIntegral hwire hinstance
      exact ⟨_, rfl, rfl⟩
    · refine ⟨ofArgument v, ?_, ?_⟩
      · cases pyType with
        | int => exact (hint rfl).elim
        | _ => rfl
      · rw [typed, holds_ofArgument hwire hinstance, decide_eq_false hint]
        rfl
  | .literal values, v, hwire, hcheck => by
    refine ⟨ofArgument v, rfl, ?_⟩
    rw [typed, kept, hasLiteral_ofArgument]
    exact hasLiteral_of_isIn hwire (isIn_of_check_literal hcheck)
  | .enum name members, v, _, hcheck => by
    obtain ⟨index, hindex, hlt⟩ := enumMember_ofArgument name members (isIn_of_check_enum hcheck)
    refine ⟨_, hindex, ?_⟩
    simp [typed, kept, hlt]
  | .list item, v, hwire, hcheck => by
    cases v with
    | list items =>
      have hitems := (check_list_eq_none item items).mp hcheck
      have hwires := (overWireItems_eq_true_iff items).mp hwire
      obtain ⟨ws, hws, hall⟩ := exists_mapM (f := fun v => item.coerce (ofArgument v))
        (p := typed item) (q := kept false item) items
        fun v hv => coerce_of_check item v (hwires v hv) (hitems v hv)
      refine ⟨.list ws, ?_, ?_⟩
      · rw [ofArgument, TypeSpec.coerce, iterate, ofItems_eq_map]
        show Except.map _ ((items.map ofArgument).mapM _) = _
        rw [List.mapM_map]
        show Except.map _ (items.mapM fun v => item.coerce (ofArgument v)) = _
        rw [hws]
        rfl
      · rw [typed, kept]
        exact hall
    | _ => cases hcheck
  | .dict spec, v, hwire, hcheck => by
    cases v with
    | dict entries =>
      have hentries := (check_dict_eq_none spec entries).mp hcheck
      have hwires := (overWireEntries_eq_true_iff entries).mp hwire
      obtain ⟨ws, hws, hall⟩ := exists_mapM
        (f := fun e : PyStr × Argument => (spec.coerce (ofArgument e.2)).map fun w => (e.1, w))
        (p := fun e => typed spec e.2) (q := fun e => kept false spec e.2) entries
        (fun e he => by
          obtain ⟨w, hw, htyped⟩ := coerce_of_check spec e.2 (hwires e he) (hentries e he)
          exact ⟨(e.1, w), by rw [hw]; rfl, htyped⟩)
      refine ⟨.dict ws, ?_, ?_⟩
      · rw [ofArgument, TypeSpec.coerce, Value.items_dict, ofEntries_eq_map]
        show Except.map _ (List.mapM _ (entries.map _)) = _
        rw [List.mapM_map]
        show Except.map _ (entries.mapM fun e => (spec.coerce (ofArgument e.2)).map _) = _
        rw [hws]
        rfl
      · rw [typed, kept]
        exact hall
    | _ => cases hcheck
  | .dataclass fields required, v, hwire, hcheck => by
    refine ⟨ofArgument v, rfl, ?_⟩
    rw [typed_ofArgument (.dataclass fields required) v hwire hcheck]
    cases v <;> rfl
  | .optional inner, v, hwire, hcheck => by
    by_cases hnone : v = .none
    · rw [hnone]
      exact ⟨.none, rfl, rfl⟩
    · rw [check_optional inner hnone] at hcheck
      obtain ⟨w, hw, htyped⟩ := coerce_of_check inner v hwire hcheck
      have hsome : ofArgument v ≠ .none := by
        cases v <;> first | exact (hnone rfl).elim | exact fun h => by cases h
      -- only `None` is coerced to `None`
      have hne : w ≠ .none := by
        rintro rfl
        exact hsome (eq_none_of_coerce inner _ hw)
      refine ⟨w, ?_, ?_⟩
      · rw [coerce_optional inner hsome, hw]
      · rw [typed_optional inner hne, kept_optional inner hnone, htyped]

theorem coerce_coerced : ∀ (spec : TypeSpec) (v w : Coerced), spec.coerce v = .ok w →
    spec.coerce w = .ok w
  | .any, _, _, _ | .upload, _, _, _ | .literal _, _, _, _ | .dataclass _ _, _, _, _ => rfl
  | .primitive pyType, v, w, h => by
    cases pyType with
    | int =>
      cases v with
      | float x =>
        obtain ⟨n, -, rfl⟩ := except_map_eq_ok h
        rfl
      | _ =>
        obtain rfl := Except.ok.inj h
        rfl
    | _ => rfl
  | .enum name members, v, w, h => by
    obtain ⟨index, rfl⟩ := enumMember_eq_ok h
    show (if name = name then _ else _) = _
    rw [if_pos rfl]
  | .list item, v, w, h => by
    rw [TypeSpec.coerce] at h
    cases hitems : iterate v with
    | error e =>
      rw [hitems] at h
      cases h
    | ok items =>
      rw [hitems] at h
      obtain ⟨ws, hws, rfl⟩ := except_map_eq_ok h
      have hagain : ws.mapM (fun v => item.coerce v) = .ok ws := by
        refine mapM_eq_self fun w hw => ?_
        obtain ⟨u, -, hu⟩ := (mem_mapM_iff hws w).mp hw
        exact coerce_coerced item u w hu
      show Except.map _ (ws.mapM fun v => item.coerce v) = _
      rw [hagain]
      rfl
  | .dict spec, v, w, h => by
    rw [TypeSpec.coerce] at h
    cases hentries : v.items with
    | error e =>
      rw [hentries] at h
      cases h
    | ok entries =>
      rw [hentries] at h
      obtain ⟨ws, hws, rfl⟩ := except_map_eq_ok h
      have hagain : ws.mapM (fun e => (spec.coerce e.2).map fun v => (e.1, v)) = .ok ws := by
        refine mapM_eq_self fun w hw => ?_
        obtain ⟨e, -, he⟩ := (mem_mapM_iff hws w).mp hw
        obtain ⟨u, hu, rfl⟩ := except_map_eq_ok he
        show Except.map _ (spec.coerce u) = _
        rw [coerce_coerced spec e.2 u hu]
        rfl
      show Except.map _ (ws.mapM fun e => (spec.coerce e.2).map fun v => (e.1, v)) = _
      rw [hagain]
      rfl
  | .optional inner, v, w, h => by
    by_cases hnone : v = .none
    · rw [hnone] at h
      obtain rfl := Except.ok.inj h
      rfl
    · rw [coerce_optional inner hnone] at h
      by_cases hw : w = .none
      · rw [hw]
        rfl
      · rw [coerce_optional inner hw]
        exact coerce_coerced inner v w h

/-! ### The arguments of a command -/

theorem content_of_mem {spec : CommandSpec} {contract : ModelContract} {name : String}
    {rawArgs : Arguments} (hspec : contract.command? name = some spec)
    (haccepts : contract.Accepts name rawArgs) :
    (∀ arg ∈ rawArgs, spec.declares arg.1 = true) ∧
      ∀ field ∈ spec.fields, Content rawArgs field := by
  obtain ⟨spec', hspec', hdeclared, hcontent⟩ := (contract.accepts_iff name rawArgs).mp haccepts
  obtain rfl := Option.some.inj (hspec.symm.trans hspec')
  exact ⟨hdeclared, hcontent⟩

theorem coerceArgument_of_content {rawArgs : Arguments} {field : String × CommandField}
    (hwire : ∀ arg ∈ rawArgs, overWire arg.2 = true) (hcontent : Content rawArgs field) :
    ∃ arg, coerceArgument rawArgs field = .ok arg ∧ ∀ name w, arg = some (name, w) ↔
      name = field.1 ∧ ∃ v, Value.lookup rawArgs field.1 = some v ∧
        field.2.spec.coerce (ofArgument v) = .ok w := by
  unfold coerceArgument checkArgument
  cases hlookup : Value.lookup rawArgs field.1 with
  | none =>
    obtain ⟨default, hdefault⟩ := Option.isSome_iff_exists.mp (hcontent.1 hlookup)
    rw [hdefault]
    exact ⟨none, rfl, by simp⟩
  | some v =>
    obtain ⟨hcheck, hvalidate⟩ := hcontent.2 v hlookup
    have hv : overWire v = true := hwire _ (Value.mem_of_lookup hlookup)
    obtain ⟨w, hw, -⟩ := coerce_of_check field.2.spec v hv hcheck
    refine ⟨some (field.1, w), ?_, fun name w' => ?_⟩
    · simp only [hcheck, hvalidate, hw]
    · constructor
      · rintro h
        obtain ⟨rfl, rfl⟩ := Prod.mk.inj (Option.some.inj h)
        exact ⟨rfl, v, rfl, hw⟩
      · rintro ⟨rfl, v', hv', hw'⟩
        cases hv'
        obtain rfl := Except.ok.inj (hw.symm.trans hw')
        rfl

theorem exists_kwargs {contract : ModelContract} {name : String} {spec : CommandSpec}
    {rawArgs : Arguments} (hspec : contract.command? name = some spec)
    (hwire : ∀ arg ∈ rawArgs, overWire arg.2 = true) (haccepts : contract.Accepts name rawArgs) :
    ∃ kwargs, contract.kwargs name rawArgs = .ok kwargs ∧ ∀ field ∈ spec.fields, ∀ w,
      (field.1, w) ∈ kwargs ↔ ∃ v, Value.lookup rawArgs field.1 = some v ∧
        field.2.spec.coerce (ofArgument v) = .ok w := by
  obtain ⟨hdeclared, hcontent⟩ := content_of_mem hspec haccepts
  have hfind : (rawArgs.find? fun arg => !spec.declares arg.1) = none := by
    rw [List.find?_eq_none]
    intro arg harg
    rw [hdeclared arg harg]
    exact Bool.false_ne_true
  obtain ⟨args, hargs⟩ := (mapM_ok_iff (coerceArgument rawArgs) spec.fields).mpr fun field hfield =>
    (coerceArgument_of_content hwire (hcontent field hfield)).imp fun _ h => h.1
  refine ⟨args.reduceOption, ?_, fun field hfield w => ?_⟩
  · unfold ModelContract.kwargs
    simp only [hspec, hfind, hargs]
    rfl
  · rw [List.reduceOption_mem_iff, mem_mapM_iff hargs]
    constructor
    · rintro ⟨field', hfield', hfield''⟩
      obtain ⟨arg, harg, hiff⟩ := coerceArgument_of_content hwire (hcontent field' hfield')
      obtain rfl := Except.ok.inj (harg.symm.trans hfield'')
      obtain ⟨hname, v, hv, hw⟩ := (hiff field.1 w).mp rfl
      -- the fields have distinct names
      obtain rfl := List.inj_on_of_nodup_map spec.distinct hfield hfield' hname
      exact ⟨v, hv, hw⟩
    · rintro ⟨v, hv, hw⟩
      obtain ⟨arg, harg, hiff⟩ := coerceArgument_of_content hwire (hcontent field hfield)
      refine ⟨field, hfield, ?_⟩
      rw [harg, (hiff field.1 w).mpr ⟨rfl, v, hv, hw⟩]

def floatOne : PyFloat := .finite ⟨false, 1, 0, by decide, by decide +kernel⟩

def pointField : String × CommandField :=
  ("point", ⟨.dataclass [("x", .primitive .int)] ["x"], { default := some .none }⟩)

def pointCommand : CommandSpec where
  fields := [("count", ⟨.optional (.primitive .int), { default := some .none }⟩), pointField]
  distinct := by decide

def pointContract : ModelContract := ⟨[("set", pointCommand)]⟩

def countArgs : Arguments := [(.text "count", .float floatOne)]

def pointArgs : Arguments := [(.text "point", .dict [(.text "x", .float floatOne)])]

theorem accepts_of_isOk {contract : ModelContract} {name : String} {rawArgs : Arguments}
    (h : (contract.validate name rawArgs).isOk = true) : contract.Accepts name rawArgs := by
  unfold ModelContract.Accepts
  cases hvalidate : contract.validate name rawArgs with
  | error e =>
    rw [hvalidate] at h
    cases h
  | ok args => exact ⟨args, rfl⟩

end ReactorRuntime.Interface
