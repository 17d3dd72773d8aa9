import Mathlib.Data.List.Basic

/-!
# Session descriptions

An SDP as far as `set_media_direction` and `bump_session_version` of `transport/webrtc/sdp.py` read
it: the version in its origin line, if that can be parsed, and its m-sections, each a list of lines.
A line is a direction (`a=sendonly`, or without the `a=`), a mid, or any other; no two m-sections
of a description that was negotiated have the same mid, and no section has two.
-/

namespace ReactorRuntime.WebRtc

inductive Direction where
  | sendrecv
  | sendonly
  | recvonly
  | inactive
  deriving DecidableEq

/-- A line of an m-section. -/
inductive SdpLine where
  | direction (d : Direction)
  | mid (mid : String)
  | other (text : String)
  deriving DecidableEq

/-- A session description. -/
structure Sdp where
  version : Option ℕ
  sections : List (List SdpLine)

namespace Sdp

/-! ### The direction of an m-section -/

/-- Whether an m-section carries `mid`. -/
def hasMid (mid : String) (lines : List SdpLine) : Bool := lines.contains (.mid mid)

/-- The direction of an m-section, which is `sendrecv` if no line says so. -/
def direction : List SdpLine → Direction
  | [] => .sendrecv
  | .direction d :: _ => d
  | _ :: lines => direction lines

def hasDirection : List SdpLine → Bool
  | [] => false
  | .direction _ :: _ => true
  | _ :: lines => hasDirection lines

/-- The first direction of an m-section replaced. -/
def replaceDirection (d : Direction) : List SdpLine → List SdpLine
  | [] => []
  | .direction _ :: lines => .direction d :: lines
  | line :: lines => line :: replaceDirection d lines

def insertDirection (d : Direction) : List SdpLine → List SdpLine
  | [] => []
  | .mid mid :: lines => .mid mid :: .direction d :: lines
  | line :: lines => line :: insertDirection d lines

/-- An m-section with its direction rewritten. -/
def setDirection (d : Direction) (lines : List SdpLine) : List SdpLine :=
  if hasDirection lines then replaceDirection d lines else insertDirection d lines

/-- The first of the sections that carries `mid`, rewritten. -/
def setFirst (mid : String) (d : Direction) : List (List SdpLine) → List (List SdpLine)
  | [] => []
  | lines :: sections =>
    if hasMid mid lines then setDirection d lines :: sections
    else lines :: setFirst mid d sections

def setMediaDirection (sdp : Sdp) (mid : String) (d : Direction) : Sdp :=
  { sdp with sections := setFirst mid d sdp.sections }

def bumpSessionVersion (sdp : Sdp) (n : ℕ) : Sdp :=
  { sdp with version := sdp.version.map (· + n) }

/-- The direction of the m-section that carries `mid`, if one does. -/
def directionOf (sdp : Sdp) (mid : String) : Option Direction :=
  (sdp.sections.find? (hasMid mid)).map direction

/-! ### What a rewrite changes -/

theorem direction_replaceDirection {d : Direction} {lines : List SdpLine}
    (h : hasDirection lines = true) : direction (replaceDirection d lines) = d := by
  induction lines with
  | nil => cases h
  | cons line lines ih =>
    cases line with
    | direction => rfl
    | mid => exact ih h
    | other => exact ih h

theorem direction_insertDirection {d : Direction} {mid : String} {lines : List SdpLine}
    (hmid : hasMid mid lines = true) (h : hasDirection lines = false) :
    direction (insertDirection d lines) = d := by
  induction lines with
  | nil => cases hmid
  | cons line lines ih =>
    cases line with
    | direction => cases h
    | mid => rfl
    | other =>
      refine ih ?_ h
      simpa [hasMid] using hmid

theorem direction_setDirection {d : Direction} {mid : String} {lines : List SdpLine}
    (hmid : hasMid mid lines = true) : direction (setDirection d lines) = d := by
  unfold setDirection
  split_ifs with h
  · exact direction_replaceDirection h
  · exact direction_insertDirection hmid (Bool.not_eq_true _ ▸ h)

theorem hasMid_setDirection (d : Direction) (mid : String) (lines : List SdpLine) :
    hasMid mid (setDirection d lines) = hasMid mid lines := by
  have hreplace : hasMid mid (replaceDirection d lines) = hasMid mid lines := by
    induction lines with
    | nil => rfl
    | cons line lines ih => cases line <;> simp_all [replaceDirection, hasMid]
  have hinsert : hasMid mid (insertDirection d lines) = hasMid mid lines := by
    clear hreplace
    induction lines with
    | nil => rfl
    | cons line lines ih => cases line <;> simp_all [insertDirection, hasMid]
  unfold setDirection
  split_ifs
  · exact hreplace
  · exact hinsert

theorem find?_setFirst_self (mid : String) (d : Direction) (sections : List (List SdpLine)) :
    (setFirst mid d sections).find? (hasMid mid) =
      (sections.find? (hasMid mid)).map (setDirection d) := by
  induction sections with
  | nil => rfl
  | cons lines sections ih =>
    unfold setFirst
    split_ifs with hmid
    · rw [List.find?_cons_of_pos (by rwa [hasMid_setDirection]), List.find?_cons_of_pos hmid]
      rfl
    · rw [List.find?_cons_of_neg hmid, List.find?_cons_of_neg hmid, ih]

theorem find?_setFirst_of_ne {mid mid' : String} (d : Direction) {sections : List (List SdpLine)}
    (h : ∀ lines ∈ sections, hasMid mid lines = true → hasMid mid' lines = false) :
    (setFirst mid d sections).find? (hasMid mid') = sections.find? (hasMid mid') := by
  induction sections with
  | nil => rfl
  | cons lines sections ih =>
    unfold setFirst
    split_ifs with hmid
    · have hnot : hasMid mid' lines = false := h lines List.mem_cons_self hmid
      rw [List.find?_cons_of_neg (by rw [hasMid_setDirection, hnot]; decide),
        List.find?_cons_of_neg (by rw [hnot]; decide)]
    · rw [List.find?_cons, List.find?_cons, ih fun l hl => h l (List.mem_cons_of_mem _ hl)]

/-- No m-section carries two mids. -/
def OneMid (sdp : Sdp) : Prop :=
  ∀ lines ∈ sdp.sections, ∀ mid mid', hasMid mid lines = true → hasMid mid' lines = true →
    mid = mid'

theorem OneMid.setMediaDirection {sdp : Sdp} (h : sdp.OneMid) (mid : String) (d : Direction) :
    (sdp.setMediaDirection mid d).OneMid := by
  have hmem : ∀ sections : List (List SdpLine), ∀ lines ∈ setFirst mid d sections,
      ∃ old ∈ sections, ∀ m, hasMid m lines = hasMid m old := by
    intro sections
    induction sections with
    | nil => exact fun lines hlines => by cases hlines
    | cons first sections ih =>
      intro lines hlines
      unfold setFirst at hlines
      split_ifs at hlines with hfirst
      · rcases List.mem_cons.mp hlines with rfl | hlines
        · exact ⟨first, List.mem_cons_self, fun m => hasMid_setDirection d m first⟩
        · exact ⟨lines, List.mem_cons_of_mem _ hlines, fun _ => rfl⟩
      · rcases List.mem_cons.mp hlines with rfl | hlines
        · exact ⟨lines, List.mem_cons_self, fun _ => rfl⟩
        · obtain ⟨old, hold, hsame⟩ := ih lines hlines
          exact ⟨old, List.mem_cons_of_mem _ hold, hsame⟩
  intro lines hlines m m' hm hm'
  obtain ⟨old, hold, hsame⟩ := hmem sdp.sections lines hlines
  rw [hsame] at hm hm'
  exact h old hold m m' hm hm'

theorem directionOf_setMediaDirection {sdp : Sdp} (h : sdp.OneMid) (mid mid' : String)
    (d : Direction) : (sdp.setMediaDirection mid d).directionOf mid' =
      if mid' = mid then (sdp.directionOf mid).map fun _ => d else sdp.directionOf mid' := by
  unfold directionOf setMediaDirection
  split_ifs with hmid
  · subst hmid
    rw [find?_setFirst_self]
    rcases hfind : sdp.sections.find? (hasMid mid') with _ | lines
    · rfl
    · simp only [Option.map_some, direction_setDirection (List.find?_some hfind)]
  · rw [find?_setFirst_of_ne]
    intro lines hlines hhas
    by_contra hhas'
    exact hmid (h lines hlines mid' mid (Bool.not_eq_false _ ▸ hhas') hhas)

end Sdp

end ReactorRuntime.WebRtc
