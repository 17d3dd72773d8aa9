import Mathlib.Data.List.DropRight
import ReactorRuntime.Python.Json

/-!
# Texts

A text is a list of characters.  `str.splitlines`, `str.strip` and `str.split` go by what Python
takes for a line break and for a space, and `str.isdigit`, `int` and the digits and words of a
regular expression by what Unicode says of a character.  `int` and `str` give up on a number that
has too many digits.
-/

namespace ReactorRuntime.Python

/-! ### Spaces -/

/-- `str.isspace` of a character. -/
def isSpace (c : Char) : Bool :=
  c.toNat ∈ [9, 10, 11, 12, 13, 28, 29, 30, 31, 32, 133, 160, 5760, 8192, 8193, 8194, 8195, 8196,
    8197, 8198, 8199, 8200, 8201, 8202, 8232, 8233, 8239, 8287, 12288]

/-- Whether `str.splitlines` ends a line at a character. -/
def isLineBreak (c : Char) : Bool :=
  c.toNat ∈ [10, 11, 12, 13, 28, 29, 30, 133, 8232, 8233]

def lstrip (text : List Char) : List Char := text.dropWhile isSpace

def strip (text : List Char) : List Char := (lstrip text).rdropWhile isSpace

def words (text : List Char) : List (List Char) := (text.splitOnP isSpace).filter (· ≠ [])

/-- The lines of a text that a character, which ends no line, is put before. -/
def consLine (c : Char) : List (List Char) → List (List Char)
  | [] => [[c]]
  | line :: lines => (c :: line) :: lines

/-- `text.splitlines(keepends=True)`. -/
def splitLines : List Char → List (List Char)
  | [] => []
  | '\r' :: '\n' :: text => ['\r', '\n'] :: splitLines text
  | c :: text =>
    if isLineBreak c then [c] :: splitLines text else consLine c (splitLines text)

/-- A line without what ends it. -/
def content (line : List Char) : List Char := line.takeWhile fun c => !isLineBreak c

instance lawfulBEqChars : LawfulBEq (List Char) := inferInstance

/-! ### Numbers -/

structure Unicode where
  /-- `str.isdigit` of a character. -/
  isDigit : Char → Bool
  /-- The decimal digit that a character is to `int` and to `\d`. -/
  decimal? : Char → Option ℕ
  /-- Whether a character is a part of a word to `\b`. -/
  isWord : Char → Bool
  isDigit_of_ascii : ∀ c, c.toNat < 128 → isDigit c = (Json.digit? c).isSome
  decimal?_of_ascii : ∀ c, c.toNat < 128 → decimal? c = Json.digit? c
  isWord_of_isSpace : ∀ c, isSpace c = true → isWord c = false

def asciiDigits : Unicode where
  isDigit c := (Json.digit? c).isSome
  decimal? := Json.digit?
  isWord c := (c.isAlphanum || c = '_') && !isSpace c
  isDigit_of_ascii := fun _ _ => rfl
  decimal?_of_ascii := fun _ _ => rfl
  isWord_of_isSpace := by
    intro c hc
    rw [hc, Bool.not_true, Bool.and_false]

/-- Whether a character is a digit to `\d`. -/
def Unicode.isDecimal (unicode : Unicode) (c : Char) : Bool := (unicode.decimal? c).isSome

/-- `int` of a text of digits, unless it raises. -/
def readNat (unicode : Unicode) (text : List Char) : Option ℕ :=
  if text.length ≤ Json.maxDigits then (text.mapM unicode.decimal?).map Json.ofDigits else none

/-- What `int` takes for a space in a text: of a text that is ASCII, only what C takes for one. -/
def isBlank (text : List Char) (c : Char) : Bool :=
  if text.all fun c => c.toNat < 128 then c.toNat ∈ [9, 10, 11, 12, 13, 32] else isSpace c

/-- `int` of a text, unless it raises: spaces around the number, a sign, and digits, which single
underscores may set apart. -/
def readInt (unicode : Unicode) (text : List Char) : Option ℤ :=
  let (negative, digits) :=
    Json.readSign ((text.dropWhile (isBlank text)).rdropWhile (isBlank text))
  let groups := digits.splitOn '_'
  if [] ∈ groups then none
  else (readNat unicode groups.flatten).map fun n => if negative then -n else n

/-- `str` of a number, unless it raises. -/
def writeNat (n : ℕ) : Option (List Char) :=
  if (Json.digitsOf n).length ≤ Json.maxDigits then some (Json.decimal n) else none

end ReactorRuntime.Python
