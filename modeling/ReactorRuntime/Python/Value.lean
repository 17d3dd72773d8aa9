import ReactorRuntime.Python.Float

/-!
# Python values

The values that `json.loads` builds, and objects of other classes, which are a parameter.  A string
is its text, or its code points where one of them is a lone surrogate, which no text encodes.

* Reading a value: `get` is the method of a mapping, `orEmpty` is `or {}`, `truthy` is `bool`.
* Converting one: `toInt` and `toFloat` are `int` and `float`, up to the texts they parse.
-/

namespace ReactorRuntime.Python

/-- The errors that reading or converting a value raises. -/
inductive PyError where
  | valueError
  | attributeError
  | typeError
  | overflowError
  deriving DecidableEq

inductive PyStr where
  | text (s : String)
  | surrogate (points : List ℕ)
  deriving DecidableEq

/-- A value; an `object` is of a class that is not JSON's. -/
inductive Value (α : Type) where
  | none
  | bool (b : Bool)
  | int (n : ℤ)
  | float (x : PyFloat)
  | str (s : PyStr)
  | list (items : List (Value α))
  | dict (entries : List (PyStr × Value α))
  | object (a : α)

/-- The values that `json.loads` builds. -/
abbrev Json := Value Empty

namespace PyStr

def points : PyStr → List ℕ
  | text s => s.toList.map Char.toNat
  | surrogate points => points

def ofPoints (points : List ℕ) : PyStr :=
  if ∀ p ∈ points, p.isValidChar then text (String.ofList (points.map Char.ofNat))
  else surrogate points

@[simp] theorem ofPoints_points_text (s : String) : ofPoints (text s).points = text s := by
  have hvalid : ∀ p ∈ (text s).points, p.isValidChar := by
    intro p hp
    obtain ⟨c, -, rfl⟩ := List.mem_map.mp hp
    exact c.valid
  rw [ofPoints, if_pos hvalid, points, List.map_map]
  have hid : Char.ofNat ∘ Char.toNat = id := funext Char.ofNat_toNat
  rw [hid, List.map_id, String.ofList_toList]

def encode : PyStr → Except PyError String
  | text s => .ok s
  | surrogate _ => .error .valueError

@[simp] theorem encode_text (s : String) : (text s).encode = .ok s := rfl

end PyStr

namespace Value

variable {α : Type}

def truthy : Value α → Bool
  | none => false
  | bool b => b
  | int n => n ≠ 0
  | float x => !x.isZero
  | str s => s ≠ .text ""
  | list items => !items.isEmpty
  | dict entries => !entries.isEmpty
  | object _ => true

def isText (value : Option (Value α)) (s : String) : Bool :=
  match value with
  | some (str t) => t = .text s
  | _ => false

def lookup (entries : List (PyStr × Value α)) (key : String) : Option (Value α) :=
  (entries.find? fun e => e.1 = .text key).map Prod.snd

def get (value : Value α) (key : String) : Except PyError (Option (Value α)) :=
  match value with
  | dict entries => .ok (lookup entries key)
  | _ => .error .attributeError

def items : Value α → Except PyError (List (PyStr × Value α))
  | dict entries => .ok entries
  | _ => .error .attributeError

/-- `value.get(key) or {}`, once the key was looked up. -/
def orEmpty : Option (Value α) → Value α
  | some value => if value.truthy then value else dict []
  | Option.none => dict []

@[simp] theorem get_dict (entries : List (PyStr × Value α)) (key : String) :
    (dict entries).get key = .ok (lookup entries key) := rfl

@[simp] theorem items_dict (entries : List (PyStr × Value α)) : (dict entries).items = .ok entries :=
  rfl

@[simp] theorem orEmpty_none : orEmpty (Option.none : Option (Value α)) = dict [] := rfl

/-- A mapping stays itself, the empty one as well. -/
@[simp] theorem orEmpty_dict (entries : List (PyStr × Value α)) :
    orEmpty (some (dict entries)) = dict entries := by
  cases entries <;> rfl

@[simp] theorem isText_text (t s : String) :
    isText (some (str (.text t) : Value α)) s = decide (t = s) := by
  simp [isText]

@[simp] theorem lookup_nil (key : String) : lookup ([] : List (PyStr × Value α)) key = Option.none :=
  rfl

theorem lookup_cons (k : PyStr) (value : Value α) (entries : List (PyStr × Value α)) (key : String) :
    lookup ((k, value) :: entries) key =
      if k = .text key then some value else lookup entries key := by
  unfold lookup
  rw [List.find?_cons]
  by_cases hk : k = .text key
  · simp [hk]
  · simp [hk]

@[simp] theorem lookup_text_cons (k : String) (value : Value α) (entries : List (PyStr × Value α))
    (key : String) : lookup ((.text k, value) :: entries) key =
      if k = key then some value else lookup entries key := by
  rw [lookup_cons]
  by_cases hk : k = key
  · simp [hk]
  · rw [if_neg (by simpa using hk), if_neg hk]

theorem mem_of_lookup {entries : List (PyStr × Value α)} {key : String} {value : Value α}
    (h : lookup entries key = some value) : (.text key, value) ∈ entries := by
  obtain ⟨e, he, rfl⟩ := Option.map_eq_some_iff.mp h
  have hkey := List.find?_some he
  have hmem := List.mem_of_find?_eq_some he
  rw [decide_eq_true_eq] at hkey
  rw [← hkey]
  exact hmem

theorem lookup_of_mem {entries : List (PyStr × Value α)} {key : String} {value : Value α}
    (hnodup : (entries.map Prod.fst).Nodup) (h : (.text key, value) ∈ entries) :
    lookup entries key = some value := by
  induction entries with
  | nil => cases h
  | cons e entries ih =>
    obtain ⟨key', value'⟩ := e
    rw [List.map_cons, List.nodup_cons] at hnodup
    rw [lookup_cons]
    rcases List.mem_cons.mp h with heq | hmem
    · cases heq
      exact if_pos rfl
    · have hne : key' ≠ .text key := by
        rintro rfl
        exact hnodup.1 (List.mem_map.mpr ⟨(.text key, value), hmem, rfl⟩)
      rw [if_neg hne, ih hnodup.2 hmem]

end Value

/-- What Python does with text: `int`, `float` and `str` where they read a text or write one. -/
structure Texts where
  /-- `int(text)`. -/
  readInt : PyStr → Option ℤ
  /-- `float(text)`. -/
  readFloat : PyStr → Option PyFloat
  /-- `str(value)` of a value that is not a string. -/
  write : Json → PyStr

namespace Texts

variable (texts : Texts)

def str : Json → PyStr
  | .str s => s
  | value => texts.write value

def floatOfInt (n : ℤ) : Except PyError PyFloat :=
  if n.natAbs < doubleBound then .ok (.ofDecimal (n < 0) n.natAbs 0) else .error .overflowError

/-- `int(x)` of a float: towards zero. -/
def intOfFloat : PyFloat → Except PyError ℤ
  | .finite x => .ok (if 0 ≤ x.toRat then ⌊x.toRat⌋ else ⌈x.toRat⌉)
  | .inf _ => .error .overflowError
  | .nan => .error .valueError

def toInt : Json → Except PyError ℤ
  | .int n => .ok n
  | .bool b => .ok b.toNat
  | .float x => intOfFloat x
  | .str s => (texts.readInt s).elim (.error .valueError) .ok
  | .none | .list _ | .dict _ => .error .typeError

def toFloat : Json → Except PyError PyFloat
  | .int n => floatOfInt n
  | .bool b => .ok (.ofDecimal false b.toNat 0)
  | .float x => .ok x
  | .str s => (texts.readFloat s).elim (.error .valueError) .ok
  | .none | .list _ | .dict _ => .error .typeError

@[simp] theorem str_str (s : PyStr) : texts.str (.str s) = s := rfl
@[simp] theorem toInt_int (n : ℤ) : texts.toInt (.int n) = .ok n := rfl
@[simp] theorem toFloat_float (x : PyFloat) : texts.toFloat (.float x) = .ok x := rfl

end Texts

end ReactorRuntime.Python
