import Mathlib.Data.List.ReduceOption
import ReactorRuntime.WebRtc.SdpText

/-!
# The payload types of a bundle

`deduplicate_bundle_pts` of `transport/webrtc/sdp.py` and what it calls.  Each regular expression is
a function on the line it is matched with, stripped where the program strips it; a group of digits
is read by `int`, which raises for one that is too long.

A dictionary is the list of its pairs, of which the first counts for the payload types that were won
and the last for the `apt` of a section.
-/

namespace ReactorRuntime.WebRtc

open Python

namespace Bundle

variable (unicode : Unicode)

/-! ### The lines of a section -/

/-- The mids of `a=group:BUNDLE\s+(.+)`. -/
def groupOf (line : Line) : Option (List (List Char)) :=
  match line.dropPrefix? "a=group:BUNDLE".toList with
  | some (space :: c :: rest) => if isSpace space then some (words (c :: rest)) else none
  | _ => none

def midOf (text : List Char) : Option (List Char) :=
  match text.dropPrefix? "a=mid:".toList with
  | some rest =>
    let mid := rest.takeWhile fun c => !isSpace c
    if mid = [] then none else some mid
  | none => none

/-- What follows a prefix, whatever the case of its letters. -/
def dropPrefixIgnoreCase? (text start : List Char) : Option (List Char) :=
  if (text.take start.length).map Char.toLower = start then some (text.drop start.length) else none

/-- What follows some spaces, of which there is one at least. -/
def dropSpaces? (text : List Char) : Option (List Char) :=
  if text.head?.any isSpace then some (lstrip text) else none

/-- The digits that a text starts with, and the rest, if there are any. -/
def digits? (text : List Char) : Option (List Char × List Char) :=
  let digits := text.takeWhile unicode.isDecimal
  if digits = [] then none else some (digits, text.dropWhile unicode.isDecimal)

/-- The payload type of `a=rtpmap:(\d+)\s+rtx/`, whatever the case. -/
def rtxOf (text : List Char) : Option (List Char) := do
  let rest ← dropPrefixIgnoreCase? text "a=rtpmap:".toList
  let (payloadType, rest) ← digits? unicode rest
  let rest ← dropSpaces? rest
  let _ ← dropPrefixIgnoreCase? rest "rtx/".toList
  some payloadType

/-- The payload type and the `apt` of `a=fmtp:(\d+)\s+apt=(\d+)`. -/
def aptOf (text : List Char) : Option (List Char × List Char) := do
  let rest ← text.dropPrefix? "a=fmtp:".toList
  let (payloadType, rest) ← digits? unicode rest
  let rest ← dropSpaces? rest
  let rest ← rest.dropPrefix? "apt=".toList
  let (apt, _) ← digits? unicode rest
  some (payloadType, apt)

def attributes : List (List Char) := ["rtpmap".toList, "fmtp".toList, "rtcp-fb".toList]

/-- The payload type of `a={attr}:(\d+)\b`. -/
def scopeBy (text attr : List Char) : Option (List Char) := do
  let rest ← text.dropPrefix? ("a=".toList ++ attr ++ [':'])
  let (payloadType, rest) ← digits? unicode rest
  if rest.head?.any unicode.isWord then none else some payloadType

/-- The payload type that a line is scoped to. -/
def scopeOf (text : List Char) : Option (List Char) := attributes.findSome? (scopeBy unicode text)

/-- A text up to the end of its `n`-th word. -/
def firstWords : ℕ → List Char → List Char
  | 0, _ => []
  | n + 1, text =>
    text.takeWhile isSpace ++ ((lstrip text).takeWhile (fun c => !isSpace c) ++
      firstWords n ((lstrip text).dropWhile fun c => !isSpace c))

/-- The numbers of `(?:\s+\d+)+`, given the words that follow: all of them up to the first that is
not a number, of which the digits it starts with are one more. -/
def numbersOf : List (List Char) → List (List Char)
  | [] => []
  | word :: rest =>
    if word.all unicode.isDecimal then word :: numbersOf rest
    else
      match digits? unicode word with
      | some (number, _) => [number]
      | none => []

/-- The groups of `(m=\S+\s+\d+\s+\S+)((?:\s+\d+)+)`, the second one split. -/
def mediaOf (text : List Char) : Option (List Char × List (List Char)) :=
  match words text with
  | media :: port :: _ :: formats =>
    if SdpText.isMedia media ∧ 2 < media.length ∧ port.all unicode.isDecimal = true ∧
        numbersOf unicode formats ≠ [] then
      some (firstWords 3 text, numbersOf unicode formats)
    else none
  | _ => none

/-! ### Sections -/

def startsMedia (line : Line) : Bool := SdpText.isMedia (lstrip line)

def parts (sdp : List Char) : List Line × List (List Line) :=
  Lists.sectionsBy startsMedia (splitLines sdp)

def bundleMids (sdp : List Char) : List (List Char) :=
  ((splitLines sdp).findSome? fun line => groupOf (content line)).getD []

def sectionMid (lines : List Line) : Option (List Char) :=
  lines.findSome? fun line => midOf (strip line)

def isBundled (mids : List (List Char)) (lines : List Line) : Bool :=
  (sectionMid lines).any (· ∈ mids)

/-- `_rtx_apts`, unless it raises. -/
def rtxApts (lines : List Line) : Option (List (ℕ × ℕ)) := do
  let payloadTypes ← (lines.filterMap fun line => rtxOf unicode (strip line)).mapM (readNat unicode)
  let apts ← (lines.filterMap fun line => aptOf unicode (strip line)).mapM fun pair => do
    let payloadType ← readNat unicode pair.1
    let apt ← readNat unicode pair.2
    some (payloadType, apt)
  some (payloadTypes.eraseDups.filterMap fun payloadType =>
    (apts.reverse.lookup payloadType).map (payloadType, ·))

/-- What is left of something that names a payload type, unless the `int` of it raises. -/
def keepUnless {α : Type} (bad : List ℕ) (digits : List Char) (a : α) : Option (Option α) := do
  let payloadType ← readNat unicode digits
  some (if payloadType ∈ bad then none else some a)

/-- The end of an m-line that is written again. -/
def eolOf (line : Line) : List Char :=
  if ['\r', '\n'].isSuffixOf line then ['\r', '\n'] else ['\n']

/-- An m-line that is written again. -/
def mediaLine (media : List Char) (kept : List (List Char)) (eol : List Char) : Line :=
  media ++ (if kept = [] then [] else [' ']) ++ [' '].intercalate kept ++ eol

/-- A line with some payload types taken out, or dropped, unless an `int` raises. -/
def stripLine (bad : List ℕ) (line : Line) : Option (Option Line) :=
  match mediaOf unicode (strip line) with
  | some (media, formats) => do
    let kept ← formats.mapM fun format => keepUnless unicode bad format format
    some (some (mediaLine media kept.reduceOption (eolOf line)))
  | none =>
    match scopeOf unicode (strip line) with
    | some digits => keepUnless unicode bad digits line
    | none => some (some line)

/-- `_strip_payload_types`, unless it raises. -/
def stripPayloadTypes (lines : List Line) (bad : List ℕ) : Option (List Line) :=
  if bad = [] then some lines
  else (lines.mapM (stripLine unicode bad)).map List.reduceOption

/-- The payload types of a section that another section won with another `apt`. -/
def conflicting (winning apts : List (ℕ × ℕ)) : List ℕ :=
  (apts.filter fun pair => winning.lookup pair.1 ≠ some pair.2).map Prod.fst

/-- `deduplicate_bundle_pts`, unless it raises. -/
def deduplicate (sdp : List Char) : Option (List Char) :=
  let mids := bundleMids sdp
  if mids = [] then some sdp
  else do
    let winning ← ((parts sdp).2.filter (isBundled mids)).mapM (rtxApts unicode)
    let rebuilt ← (parts sdp).2.mapM fun lines =>
      if isBundled mids lines then do
        let apts ← rtxApts unicode lines
        stripPayloadTypes unicode lines (conflicting winning.flatten apts)
      else some lines
    some ((parts sdp).1.flatten ++ rebuilt.flatten.flatten)

end Bundle

end ReactorRuntime.WebRtc
