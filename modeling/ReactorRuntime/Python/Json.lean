import Mathlib.Data.Nat.Digits.Defs
import ReactorRuntime.Python.Value

/-!
# JSON text

`json.dumps` with its default separators and `ensure_ascii`, and `json.loads`: the text of a value is
written on one line in ASCII, and a text that is read may also hold what is not JSON's (`NaN`,
`Infinity`), lone surrogates, and a key more than once, whose last value wins.

The limit on the depth of a text is left out.
-/

namespace ReactorRuntime.Python

namespace Json

/-! ### Numbers -/

def digitChar (d : ℕ) : Char := Char.ofNat (48 + d)

def digit? (c : Char) : Option ℕ :=
  if 48 ≤ c.toNat ∧ c.toNat ≤ 57 then some (c.toNat - 48) else none

/-- The digits of a number, the first one first. -/
def digitsOf (n : ℕ) : List ℕ := if n = 0 then [0] else (Nat.digits 10 n).reverse

def decimal (n : ℕ) : List Char := (digitsOf n).map digitChar

def writeInt (n : ℤ) : List Char :=
  if n < 0 then '-' :: decimal n.natAbs else decimal n.natAbs

def exponentDigits (n : ℕ) : List ℕ := if n < 10 then 0 :: digitsOf n else digitsOf n

def writeExponent (e : ℤ) : List Char :=
  'e' :: (if e < 0 then '-' else '+') :: (exponentDigits e.natAbs).map digitChar

def zeros (k : ℕ) : List Char := List.replicate k (digitChar 0)

/-- `repr(x)` of a finite float that is not negative: `point` digits stand before the decimal point. -/
def writeDecimal (digits : ℕ) (exponent : ℤ) : List Char :=
  let text := decimal digits
  let point : ℤ := text.length + exponent
  if -4 < point ∧ point ≤ 16 then
    if 0 ≤ exponent then text ++ zeros exponent.toNat ++ ['.', digitChar 0]
    else if 0 < point then text.take point.toNat ++ '.' :: text.drop point.toNat
    else digitChar 0 :: '.' :: zeros (-point).toNat ++ text
  else if text.length = 1 then text ++ writeExponent (point - 1)
  else text.take 1 ++ '.' :: text.drop 1 ++ writeExponent (point - 1)

/-- `float.__repr__`, with the names that JSON text has for what is not finite. -/
def writeFloat : PyFloat → List Char
  | .finite x => if x.negative then '-' :: writeDecimal x.digits x.exponent
      else writeDecimal x.digits x.exponent
  | .inf false => ['I', 'n', 'f', 'i', 'n', 'i', 't', 'y']
  | .inf true => ['-', 'I', 'n', 'f', 'i', 'n', 'i', 't', 'y']
  | .nan => ['N', 'a', 'N']

/-- The digits at the start of a text, and the rest of it. -/
def readDigits : List Char → List ℕ × List Char
  | [] => ([], [])
  | c :: cs =>
    match digit? c with
    | some d => (d :: (readDigits cs).1, (readDigits cs).2)
    | none => ([], c :: cs)

/-- The number that digits write. -/
def ofDigits (digits : List ℕ) : ℕ := digits.foldl (fun n d => 10 * n + d) 0

/-- The most digits an integer may have. -/
def maxDigits : ℕ := 4300

/-- The digits after a decimal point, if the text goes on with one that digits follow. -/
def readFraction : List Char → Option (List ℕ) × List Char
  | '.' :: cs =>
    match readDigits cs with
    | ([], _) => (none, '.' :: cs)
    | (digits, rest) => (some digits, rest)
  | cs => (none, cs)

def readSign : List Char → Bool × List Char
  | '-' :: cs => (true, cs)
  | '+' :: cs => (false, cs)
  | cs => (false, cs)

/-- The exponent of a number, if the text goes on with one. -/
def readExponent (cs : List Char) : Option ℤ × List Char :=
  match cs with
  | c :: cs' =>
    if c = 'e' ∨ c = 'E' then
      match readSign cs' with
      | (negative, cs'') =>
        match readDigits cs'' with
        | ([], _) => (none, cs)
        | (digits, rest) => (some (if negative then -ofDigits digits else ofDigits digits), rest)
    else (none, cs)
  | [] => (none, [])

/-- The digits of an integer part: a zero stands alone. -/
def readWhole (cs : List Char) : Option (List ℕ × List Char) :=
  match readDigits cs with
  | ([], _) => none
  | (0 :: _, _) => some ([0], cs.tail)
  | (digits, rest) => some (digits, rest)

def readNumber (negative : Bool) (cs : List Char) : Option (Json × List Char) := do
  let (whole, cs) ← readWhole cs
  match readFraction cs with
  | (fraction, cs) =>
    match readExponent cs with
    | (exponent, cs) =>
      match fraction, exponent with
      | none, none =>
        if maxDigits < whole.length then none
        else
          let n : ℤ := ofDigits whole
          return (.int (if negative then -n else n), cs)
      | fraction, exponent =>
        let fraction := fraction.getD []
        return (.float (.ofDecimal negative (ofDigits (whole ++ fraction))
          (exponent.getD 0 - fraction.length)), cs)

/-! ### Strings -/

def hexChar (d : ℕ) : Char := if d < 10 then Char.ofNat (48 + d) else Char.ofNat (87 + d)

/-- The hexadecimal digit of a character. -/
def hex? (c : Char) : Option ℕ :=
  if 48 ≤ c.toNat ∧ c.toNat ≤ 57 then some (c.toNat - 48)
  else if 97 ≤ c.toNat ∧ c.toNat ≤ 102 then some (c.toNat - 87)
  else if 65 ≤ c.toNat ∧ c.toNat ≤ 70 then some (c.toNat - 55)
  else none

/-- The escape of a code unit. -/
def unicodeEscape (u : ℕ) : List Char :=
  ['\\', 'u', hexChar (u / 4096 % 16), hexChar (u / 256 % 16), hexChar (u / 16 % 16),
    hexChar (u % 16)]

/-- What is written for a code point in a string. -/
def escape (p : ℕ) : List Char :=
  if p = 34 then ['\\', '"']
  else if p = 92 then ['\\', '\\']
  else if p = 10 then ['\\', 'n']
  else if p = 13 then ['\\', 'r']
  else if p = 9 then ['\\', 't']
  else if p = 12 then ['\\', 'f']
  else if p = 8 then ['\\', 'b']
  else if 32 ≤ p ∧ p ≤ 126 then [Char.ofNat p]
  else if p < 65536 then unicodeEscape p
  else unicodeEscape (55296 + (p - 65536) / 1024) ++ unicodeEscape (56320 + (p - 65536) % 1024)

def writeStr (s : PyStr) : List Char := '"' :: s.points.flatMap escape ++ ['"']

/-- Four hexadecimal digits. -/
def readHex : List Char → Option (ℕ × List Char)
  | a :: b :: c :: d :: rest => do
    return (4096 * (← hex? a) + 256 * (← hex? b) + 16 * (← hex? c) + (← hex? d), rest)
  | _ => none

/-- The second half of a surrogate pair, if the text goes on with one. -/
def readLow : List Char → Option (ℕ × List Char)
  | '\\' :: 'u' :: cs =>
    match readHex cs with
    | some (low, rest) => if 56320 ≤ low ∧ low < 57344 then some (low, rest) else none
    | none => none
  | _ => none

/-- One code point of a string, escaped or not. -/
def readPoint : List Char → Option (ℕ × List Char)
  | '\\' :: '"' :: rest => some (34, rest)
  | '\\' :: '\\' :: rest => some (92, rest)
  | '\\' :: '/' :: rest => some (47, rest)
  | '\\' :: 'b' :: rest => some (8, rest)
  | '\\' :: 'f' :: rest => some (12, rest)
  | '\\' :: 'n' :: rest => some (10, rest)
  | '\\' :: 'r' :: rest => some (13, rest)
  | '\\' :: 't' :: rest => some (9, rest)
  | '\\' :: 'u' :: cs =>
    match readHex cs with
    | some (u, rest) =>
      if 55296 ≤ u ∧ u < 56320 then
        match readLow rest with
        | some (low, rest) => some (65536 + (u - 55296) * 1024 + (low - 56320), rest)
        | none => some (u, rest)
      else some (u, rest)
    | none => none
  | '\\' :: _ => none
  | c :: rest => if c.toNat < 32 then none else some (c.toNat, rest)
  | [] => none

/-- The code points of a string up to its closing quote. -/
def readPoints : ℕ → List Char → Option (List ℕ × List Char)
  | _, '"' :: rest => some ([], rest)
  | 0, _ => none
  | fuel + 1, cs => do
    let (p, cs) ← readPoint cs
    let (ps, rest) ← readPoints fuel cs
    return (p :: ps, rest)

/-- A string after its opening quote. -/
def readStr (cs : List Char) : Option (PyStr × List Char) :=
  (readPoints cs.length cs).map fun r => (.ofPoints r.1, r.2)

/-! ### Values -/

mutual

/-- The text of a value. -/
def write : Json → List Char
  | .none => ['n', 'u', 'l', 'l']
  | .bool true => ['t', 'r', 'u', 'e']
  | .bool false => ['f', 'a', 'l', 's', 'e']
  | .int n => writeInt n
  | .float x => writeFloat x
  | .str s => writeStr s
  | .list items => '[' :: writeItems items
  | .dict entries => '\x7b' :: writeEntries entries

def writeItems : List Json → List Char
  | [] => [']']
  | [item] => write item ++ [']']
  | item :: item' :: items => write item ++ ',' :: ' ' :: writeItems (item' :: items)

/-- The entries of a dictionary, up to its closing brace. -/
def writeEntries : List (PyStr × Json) → List Char
  | [] => ['\x7d']
  | [(key, value)] => writeStr key ++ ':' :: ' ' :: write value ++ ['\x7d']
  | (key, value) :: entry :: entries =>
    writeStr key ++ ':' :: ' ' :: write value ++ ',' :: ' ' :: writeEntries (entry :: entries)

end

def dumps (value : Json) : String := String.ofList (write value)

def isSpace (c : Char) : Bool := c = ' ' ∨ c = '\n' ∨ c = '\t' ∨ c = '\r'

/-- The text after its whitespace. -/
def skip (cs : List Char) : List Char := cs.dropWhile isSpace

/-- The dictionary that takes one entry after the other: the last value of a key wins, in the place
of the first. -/
def insert (entries : List (PyStr × Json)) (key : PyStr) (value : Json) : List (PyStr × Json) :=
  if entries.any fun e => e.1 = key then
    entries.map fun e => if e.1 = key then (key, value) else e
  else entries ++ [(key, value)]

mutual

/-- The value at the start of a text, and the rest of it. -/
def read : ℕ → List Char → Option (Json × List Char)
  | 0, _ => none
  | fuel + 1, cs =>
    match cs with
    | '"' :: cs => (readStr cs).map fun r => (.str r.1, r.2)
    | '[' :: cs =>
      match skip cs with
      | ']' :: rest => some (.list [], rest)
      | cs => (readItems fuel cs).map fun r => (.list r.1, r.2)
    | '\x7b' :: cs =>
      match skip cs with
      | '\x7d' :: rest => some (.dict [], rest)
      | cs => (readEntries fuel [] cs).map fun r => (.dict r.1, r.2)
    | 'n' :: 'u' :: 'l' :: 'l' :: rest => some (.none, rest)
    | 't' :: 'r' :: 'u' :: 'e' :: rest => some (.bool true, rest)
    | 'f' :: 'a' :: 'l' :: 's' :: 'e' :: rest => some (.bool false, rest)
    | 'N' :: 'a' :: 'N' :: rest => some (.float .nan, rest)
    | 'I' :: 'n' :: 'f' :: 'i' :: 'n' :: 'i' :: 't' :: 'y' :: rest =>
      some (.float (.inf false), rest)
    | '-' :: 'I' :: 'n' :: 'f' :: 'i' :: 'n' :: 'i' :: 't' :: 'y' :: rest =>
      some (.float (.inf true), rest)
    | '-' :: cs => readNumber true cs
    | cs => readNumber false cs

def readItems : ℕ → List Char → Option (List Json × List Char)
  | 0, _ => none
  | fuel + 1, cs => do
    let (item, cs) ← read fuel cs
    match skip cs with
    | ']' :: rest => return ([item], rest)
    | ',' :: cs =>
      let (items, rest) ← readItems fuel (skip cs)
      return (item :: items, rest)
    | _ => none

/-- The entries of a dictionary that is not empty, added to those before them. -/
def readEntries : ℕ → List (PyStr × Json) → List Char →
    Option (List (PyStr × Json) × List Char)
  | 0, _, _ => none
  | fuel + 1, entries, '"' :: cs => do
    let (key, cs) ← readStr cs
    match skip cs with
    | ':' :: cs =>
      let (value, cs) ← read fuel (skip cs)
      let entries := insert entries key value
      match skip cs with
      | '\x7d' :: rest => return (entries, rest)
      | ',' :: cs => readEntries fuel entries (skip cs)
      | _ => none
    | _ => none
  | _, _, _ => none

end

/-- `json.loads` of a text: `none` where it raises a `ValueError`. -/
def loads (s : String) : Option Json := do
  let cs := s.toList
  let (value, rest) ← read (cs.length + 1) (skip cs)
  if (skip rest).isEmpty then return value else none

end Json

-- The equations of the recursive functions, for the proofs about them.
attribute [local simp] Json.write Json.writeItems Json.writeEntries Json.read Json.readItems
  Json.readEntries Json.readPoints Json.readPoint

end ReactorRuntime.Python
