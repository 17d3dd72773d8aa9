import ReactorRuntime.Python.Value

/-!
# Comparing Python values

`==`, `<`, `>` and `len` of values.  Two numbers are equal by value, whatever their classes are, and
a boolean is the number 0 or 1; the parameter of `equals` is whether it is, as it is no number
in JSON.
-/

namespace ReactorRuntime.Python

/-- What a number is compared by. -/
inductive Numeral where
  | rat (q : ℚ)
  | inf (negative : Bool)
  deriving DecidableEq

namespace Value

variable {α β : Type}

/-- What a value is compared by, if it is a number: a NaN equals nothing. -/
def numeral (bools : Bool) : Value α → Option Numeral
  | .bool b => if bools then some (.rat b.toNat) else Option.none
  | .int n => some (.rat n)
  | .float (.finite x) => some (.rat x.toRat)
  | .float (.inf negative) => some (.inf negative)
  | .float .nan | .none | .str _ | .list _ | .dict _ | .object _ => Option.none

def sameNumber (bools : Bool) (v : Value α) (w : Value β) : Bool :=
  match v.numeral bools, w.numeral bools with
  | some a, some b => a = b
  | _, _ => false

mutual

/-- `v == w`. -/
def equals (bools : Bool) : Value α → Value β → Bool
  | .none, .none => true
  | .bool b, .bool c => b = c
  | .str s, .str t => s = t
  | .list items, .list items' => equalsItems bools items items'
  | .dict entries, .dict entries' =>
    entries.length = entries'.length && equalsEntries bools entries entries'
  | v, w => v.sameNumber bools w

def equalsItems (bools : Bool) : List (Value α) → List (Value β) → Bool
  | [], [] => true
  | v :: items, w :: items' => v.equals bools w && equalsItems bools items items'
  | _, _ => false

def equalsEntries (bools : Bool) : List (PyStr × Value α) → List (PyStr × Value β) → Bool
  | [], _ => true
  | (key, v) :: entries, entries' =>
    (match entries'.find? fun e => e.1 = key with
      | some e => v.equals bools e.2
      | Option.none => false) && equalsEntries bools entries entries'

end

def isIn (bools : Bool) (v : Value α) (values : List (Value β)) : Bool :=
  values.any fun w => v.equals bools w

/-- `v < bound`: none where it raises a `TypeError`. -/
def lessThan (v : Value α) (bound : ℚ) : Option Bool :=
  match v with
  | .bool b => some (decide ((b.toNat : ℚ) < bound))
  | .int n => some (decide ((n : ℚ) < bound))
  | .float (.finite x) => some (decide (x.toRat < bound))
  | .float (.inf negative) => some negative
  | .float .nan => some false
  | .none | .str _ | .list _ | .dict _ | .object _ => Option.none

/-- `v > bound`: none where it raises a `TypeError`. -/
def greaterThan (v : Value α) (bound : ℚ) : Option Bool :=
  match v with
  | .bool b => some (decide (bound < (b.toNat : ℚ)))
  | .int n => some (decide (bound < (n : ℚ)))
  | .float (.finite x) => some (decide (bound < x.toRat))
  | .float (.inf negative) => some (!negative)
  | .float .nan => some false
  | .none | .str _ | .list _ | .dict _ | .object _ => Option.none

/-- `len(v)`: none where it raises a `TypeError`. -/
def length : Value α → Option ℕ
  | .str s => some s.points.length
  | .list items => some items.length
  | .dict entries => some entries.length
  | .none | .bool _ | .int _ | .float _ | .object _ => Option.none

/-- Whether a value is a number with no fraction: `isinstance(v, int)`, which a boolean also is not,
or `v.is_integer()`. -/
def isIntegral : Value α → Bool
  | .int _ => true
  | .float (.finite x) => x.toRat.den = 1
  | .float (.inf _) | .float .nan | .none | .bool _ | .str _ | .list _ | .dict _ | .object _ => false

def isNumber : Value α → Bool
  | .int _ | .float _ => true
  | .none | .bool _ | .str _ | .list _ | .dict _ | .object _ => false

/-- `entries[key] = value`: a new key comes last. -/
def assign (entries : List (PyStr × Value α)) (key : PyStr) (value : Value α) :
    List (PyStr × Value α) :=
  if entries.any fun e => e.1 = key then
    entries.map fun e => if e.1 = key then (key, value) else e
  else entries ++ [(key, value)]

def entryAt (entries : List (PyStr × Value α)) (key : PyStr) : Option (Value α) :=
  (entries.find? fun e => e.1 = key).map Prod.snd

theorem lookup_eq_entryAt (entries : List (PyStr × Value α)) (key : String) :
    lookup entries key = entryAt entries (.text key) := rfl

@[simp] theorem entryAt_nil (key : PyStr) : entryAt ([] : List (PyStr × Value α)) key = Option.none :=
  rfl

theorem entryAt_cons (k : PyStr) (value : Value α) (entries : List (PyStr × Value α))
    (key : PyStr) :
    entryAt ((k, value) :: entries) key = if k = key then some value else entryAt entries key := by
  unfold entryAt
  rw [List.find?_cons]
  by_cases hk : k = key
  · simp [hk]
  · simp [hk]

theorem entryAt_isSome {entries : List (PyStr × Value α)} {key : PyStr} :
    (entryAt entries key).isSome ↔ key ∈ entries.map Prod.fst := by
  simp [entryAt]

theorem entryAt_replace (entries : List (PyStr × Value α)) (param key : PyStr) (value : Value α) :
    entryAt (entries.map fun e => if e.1 = param then (param, value) else e) key =
      if key = param then (entryAt entries param).map fun _ => value else entryAt entries key := by
  induction entries with
  | nil => simp
  | cons e entries ih =>
    obtain ⟨k, v⟩ := e
    by_cases hk : k = param
    · by_cases hkey : key = param
      · simp [hk, hkey, entryAt_cons]
      · have hne : param ≠ key := fun h => hkey h.symm
        simp only [List.map_cons, hk, if_true, entryAt_cons, hne, if_false, hkey, ih]
    · by_cases hkey : key = param
      · simp only [hkey, if_true] at ih ⊢
        simp only [List.map_cons, hk, if_false, entryAt_cons, ih]
      · simp only [hkey, if_false] at ih ⊢
        simp only [List.map_cons, hk, if_false, entryAt_cons, ih]

theorem entryAt_assign (entries : List (PyStr × Value α)) (param key : PyStr) (value : Value α) :
    entryAt (assign entries param value) key =
      if key = param then some value else entryAt entries key := by
  unfold assign
  split_ifs with hany hkey hkey
  · obtain ⟨found, hfound⟩ := Option.isSome_iff_exists.mp (entryAt_isSome.mpr (by
      simpa using hany : param ∈ entries.map Prod.fst))
    rw [entryAt_replace, if_pos hkey, hfound]
    rfl
  · rw [entryAt_replace, if_neg hkey]
  · have hnone : entryAt entries param = Option.none := by
      rw [← Option.not_isSome_iff_eq_none, entryAt_isSome]
      simpa using hany
    rw [hkey]
    simp only [entryAt, List.find?_append] at hnone ⊢
    simp [Option.map_eq_none_iff.mp hnone]
  · have hne : param ≠ key := fun h => hkey h.symm
    simp only [entryAt, List.find?_append]
    cases entries.find? fun e => e.1 = key <;> simp [hne]

theorem keys_assign {entries : List (PyStr × Value α)} {param : PyStr} (value : Value α)
    (h : (entryAt entries param).isSome) :
    (assign entries param value).map Prod.fst = entries.map Prod.fst := by
  have hany : entries.any fun e => e.1 = param := by simpa using entryAt_isSome.mp h
  rw [assign, if_pos hany, List.map_map]
  refine List.map_congr_left fun e _ => ?_
  by_cases he : e.1 = param <;> simp [he]

/-- A number is compared by the same numeral whether booleans are numbers. -/
theorem numeral_of_false {v : Value α} {a : Numeral} (h : v.numeral false = some a) :
    v.numeral true = some a := by
  cases v with
  | bool b => cases h
  | float x => cases x <;> exact h
  | _ => exact h

theorem sameNumber_of_false {v : Value α} {w : Value β} (h : v.sameNumber false w) :
    v.sameNumber true w := by
  unfold sameNumber at h ⊢
  cases hv : v.numeral false with
  | none => simp [hv] at h
  | some a =>
    cases hw : w.numeral false with
    | none => simp [hv, hw] at h
    | some b =>
      rw [hv, hw] at h
      rw [numeral_of_false hv, numeral_of_false hw]
      exact h

theorem equals_int (bools : Bool) (n : ℤ) (w : Value β) :
    (.int n : Value α).equals bools w = (.int n : Value α).sameNumber bools w := by
  cases w <;> rfl

theorem equals_float (bools : Bool) (x : PyFloat) (w : Value β) :
    (.float x : Value α).equals bools w = (.float x : Value α).sameNumber bools w := by
  cases w <;> rfl

mutual

theorem equals_of_false : ∀ (v : Value α) (w : Value β), v.equals false w → v.equals true w
  | .list items, w, h => by
    cases w with
    | list items' =>
      rw [equals] at h ⊢
      exact equalsItems_of_false items items' h
    | _ => exact absurd h (by simp [equals, sameNumber, numeral])
  | .dict entries, w, h => by
    cases w with
    | dict entries' =>
      rw [equals, Bool.and_eq_true] at h ⊢
      exact ⟨h.1, equalsEntries_of_false entries entries' h.2⟩
    | _ => exact absurd h (by simp [equals, sameNumber, numeral])
  | .none, w, h | .bool _, w, h | .str _, w, h => by
    cases w <;> first | exact h | exact absurd h (by simp [equals, sameNumber, numeral])
  | .int n, w, h => by
    rw [equals_int] at h ⊢
    exact sameNumber_of_false h
  | .float x, w, h => by
    rw [equals_float] at h ⊢
    exact sameNumber_of_false h
  | .object a, w, h => by
    cases w <;> exact absurd h (by simp [equals, sameNumber, numeral])

theorem equalsItems_of_false : ∀ (items : List (Value α)) (items' : List (Value β)),
    equalsItems false items items' → equalsItems true items items'
  | [], [], _ => rfl
  | v :: items, w :: items', h => by
    rw [equalsItems, Bool.and_eq_true] at h ⊢
    exact ⟨equals_of_false v w h.1, equalsItems_of_false items items' h.2⟩

theorem equalsEntries_of_false : ∀ (entries : List (PyStr × Value α))
    (entries' : List (PyStr × Value β)),
      equalsEntries false entries entries' → equalsEntries true entries entries'
  | [], _, _ => rfl
  | (key, v) :: entries, entries', h => by
    rw [equalsEntries, Bool.and_eq_true] at h ⊢
    refine ⟨?_, equalsEntries_of_false entries entries' h.2⟩
    have hv := h.1
    cases hfind : entries'.find? fun e => e.1 = key with
    | none => simp [hfind] at hv
    | some e =>
      rw [hfind] at hv
      exact equals_of_false v e.2 hv

end

theorem isIn_of_false {v : Value α} {values : List (Value β)} (h : v.isIn false values) :
    v.isIn true values := by
  obtain ⟨w, hw, heq⟩ := List.any_eq_true.mp h
  exact List.any_eq_true.mpr ⟨w, hw, equals_of_false v w heq⟩

end Value

-- The equations of the recursive functions, for the proofs about them.
attribute [local simp] Value.equals Value.equalsItems Value.equalsEntries

end ReactorRuntime.Python
