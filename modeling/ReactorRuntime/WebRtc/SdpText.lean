import ReactorRuntime.Lists.Sections
import ReactorRuntime.Python.Text
import ReactorRuntime.WebRtc.Pauses

/-!
# The text of a session description

`set_media_direction` and `bump_session_version` of `transport/webrtc/sdp.py` on the texts they are
given, and the loop of `_apply_pauses` that rewrites an offer and an answer with them.  Both split a
text at `\r\n`, also one whose lines end with `\n` alone, which is then a single line.

A text is a list of characters, and so is a line.
-/

namespace ReactorRuntime.WebRtc

open Python

abbrev Line := List Char

namespace SdpText

/-! ### Lines -/

/-- `sdp.split("\r\n")`. -/
def splitCrlf : List Char → List Line
  | [] => [[]]
  | '\r' :: '\n' :: text => [] :: splitCrlf text
  | c :: text => (splitCrlf text).modifyHead (c :: ·)

def joinCrlf (lines : List Line) : List Char := ['\r', '\n'].intercalate lines

def removePrefix (start text : List Char) : List Char :=
  if start.isPrefixOf text then text.drop start.length else text

def isMedia (line : Line) : Bool := ['m', '='].isPrefixOf line

def isOrigin (line : Line) : Bool := ['o', '='].isPrefixOf line

def midPrefix : List Char := ['a', '=', 'm', 'i', 'd', ':']

def isMid (line : Line) : Bool := midPrefix.isPrefixOf line

def midLine (mid : String) : Line := midPrefix ++ mid.toList

def directionName : Direction → List Char
  | .sendrecv => ['s', 'e', 'n', 'd', 'r', 'e', 'c', 'v']
  | .sendonly => ['s', 'e', 'n', 'd', 'o', 'n', 'l', 'y']
  | .recvonly => ['r', 'e', 'c', 'v', 'o', 'n', 'l', 'y']
  | .inactive => ['i', 'n', 'a', 'c', 't', 'i', 'v', 'e']

def directions : List (List Char) :=
  [Direction.sendrecv, .sendonly, .recvonly, .inactive].map directionName

def directionLine (d : Direction) : Line := ['a', '='] ++ directionName d

def isDirection (line : Line) : Bool := removePrefix ['a', '='] line ∈ directions

def sectionsOf (lines : List Line) : List Line × List (List Line) := Lists.sectionsBy isMedia lines

/-! ### The direction of an m-section -/

/-- The first line of a section that says a direction, replaced, if there is one. -/
def replaceDirection (d : Direction) : List Line → Option (List Line)
  | [] => none
  | line :: lines =>
    if isDirection line then some (directionLine d :: lines)
    else (replaceDirection d lines).map (line :: ·)

/-- A direction inserted after the first line of a section that says a mid. -/
def insertDirection (d : Direction) : List Line → List Line
  | [] => []
  | line :: lines =>
    if isMid line then line :: directionLine d :: lines else line :: insertDirection d lines

def rewriteSection (d : Direction) (lines : List Line) : List Line :=
  (replaceDirection d lines).getD (insertDirection d lines)

def rewriteFirst (mid : String) (d : Direction) : List (List Line) → List (List Line)
  | [] => []
  | lines :: sections =>
    if midLine mid ∈ lines then rewriteSection d lines :: sections
    else lines :: rewriteFirst mid d sections

/-- `set_media_direction`, unless it raises: the bounds of the sections are zipped strictly, which
fails for a text that has none. -/
def setMediaDirection (sdp : List Char) (mid : String) (d : Direction) : Option (List Char) :=
  match sectionsOf (splitCrlf sdp) with
  | (_, []) => none
  | (session, sections) => some (joinCrlf (session ++ (rewriteFirst mid d sections).flatten))

/-! ### The version of a session -/

def bumpOrigin (unicode : Unicode) (n : ℕ) (line : Line) : Option Line :=
  match line.splitOn ' ' with
  | user :: id :: version :: fields =>
    if version ≠ [] ∧ version.all unicode.isDigit = true then do
      let value ← readNat unicode version
      let version ← writeNat (value + n)
      some ([' '].intercalate (user :: id :: version :: fields))
    else some line
  | _ => some line

/-- The lines of a description with the version of its first origin line advanced. -/
def bumpLines (unicode : Unicode) (n : ℕ) : List Line → Option (List Line)
  | [] => some []
  | line :: lines =>
    if isOrigin line then (bumpOrigin unicode n line).map (· :: lines)
    else (bumpLines unicode n lines).map (line :: ·)

/-- `bump_session_version`, unless it raises. -/
def bumpSessionVersion (unicode : Unicode) (sdp : List Char) (n : ℕ) : Option (List Char) :=
  (bumpLines unicode n (splitCrlf sdp)).map joinCrlf

/-! ### The loop over the tracks -/

/-- The direction of a track's section, `active` unless the track is paused. -/
def trackDirection (paused : Finset String) (active : Direction) (track : MappedTrack) :
    Direction :=
  if track.name ∈ paused then .inactive else active

/-- A description with the section of one track rewritten, unless that raises. -/
def restateTrack (paused : Finset String) (active : Direction) (sdp : List Char)
    (track : MappedTrack) : Option (List Char) :=
  if track.out then setMediaDirection sdp track.mid (trackDirection paused active track)
  else some sdp

/-- The offer and the answer that `_apply_pauses` hands to the engine, unless it raises before. -/
def descriptions (unicode : Unicode) (tracks : List MappedTrack) (paused : Finset String)
    (renegotiations : ℕ) (offer answer : List Char) : Option (List Char × List Char) := do
  let offer ← bumpSessionVersion unicode offer (renegotiations + 1)
  let answer ← bumpSessionVersion unicode answer (renegotiations + 1)
  tracks.foldlM (fun sdps track => do
    let offer ← restateTrack paused .recvonly sdps.1 track
    let answer ← restateTrack paused .sendonly sdps.2 track
    some (offer, answer)) (offer, answer)

end SdpText

end ReactorRuntime.WebRtc
