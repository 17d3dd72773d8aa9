import ReactorRuntime.Python.Equiv.Json
import ReactorRuntime.Python.Equiv.Text
import ReactorRuntime.WebRtc.SdpText

/-!
# What a pause rewrites

A description whose lines end with `\r\n` comes apart into its lines and its m-sections, and goes
together again.  Where its m-sections have distinct mids and its track map has each mid once, the
loop over the tracks rewrites one section for each outbound track and the order of the tracks does
not matter (`foldlM_restateTrack`).  A description whose lines end with `\n` alone is one line to
both functions: its version stays, and its first outbound track makes the pass raise.

So a pass rewrites the directions and the versions and nothing else just where the lines of both
descriptions end with `\r\n`, the versions are not too long, and no section that it rewrites says
two directions (`descriptions_iff`).
-/

namespace ReactorRuntime.WebRtc.SdpText

open Python

/-! ### Lines -/

def NoBreak (line : Line) : Prop := '\r' ∉ line ∧ '\n' ∉ line

theorem splitCrlf_cons {c : Char} (hc : c ≠ '\r') (text : List Char) :
    splitCrlf (c :: text) = (splitCrlf text).modifyHead (c :: ·) := by
  rw [splitCrlf]
  intro rest hcr
  exact (hc hcr).elim

theorem splitCrlf_of_notMem {text : List Char} (h : '\r' ∉ text) : splitCrlf text = [text] := by
  induction text with
  | nil => rfl
  | cons c text ih =>
    rw [List.mem_cons, not_or] at h
    rw [splitCrlf_cons (Ne.symm h.1), ih h.2]
    rfl

theorem splitCrlf_append {line : Line} (h : '\r' ∉ line) (text : List Char) :
    splitCrlf (line ++ '\r' :: '\n' :: text) = line :: splitCrlf text := by
  induction line with
  | nil => rfl
  | cons c line ih =>
    rw [List.mem_cons, not_or] at h
    rw [List.cons_append, splitCrlf_cons (Ne.symm h.1), ih h.2]
    rfl

theorem splitCrlf_joinCrlf {lines : List Line} (hne : lines ≠ [])
    (h : ∀ line ∈ lines, NoBreak line) : splitCrlf (joinCrlf lines) = lines := by
  induction lines with
  | nil => exact (hne rfl).elim
  | cons line lines ih =>
    have hline : '\r' ∉ line := (h line List.mem_cons_self).1
    cases lines with
    | nil =>
      rw [joinCrlf, List.intercalate_singleton]
      exact splitCrlf_of_notMem hline
    | cons next lines =>
      have hrest := ih (List.cons_ne_nil _ _) fun l hl => h l (List.mem_cons_of_mem _ hl)
      rw [joinCrlf, List.intercalate_cons_cons, List.append_assoc, List.cons_append,
        List.cons_append, List.nil_append, splitCrlf_append hline]
      exact congrArg _ hrest

/-! ### Sections -/

/-- A line says its type, unless it is what follows the end of the last line. -/
def Typed (l : Line) : Prop := l = [] ∨ l[1]? = some '='

/-- An m-section: its first line starts it and no other line does, and at most one says a mid. -/
structure IsSection (lines : List Line) : Prop where
  starts : Lists.StartsOnce isMedia lines
  noBreak : ∀ line ∈ lines, NoBreak line
  typed : ∀ line ∈ lines, Typed line
  one_mid : (lines.filter isMid).length ≤ 1

/-! ### The rewriting of one section -/

theorem isDirection_directionLine (d : Direction) : isDirection (directionLine d) = true := by
  cases d <;> decide

theorem isMedia_directionLine (d : Direction) : isMedia (directionLine d) = false := by
  cases d <;> decide

theorem noBreak_directionLine (d : Direction) : NoBreak (directionLine d) := by
  unfold NoBreak
  cases d <;> decide

theorem replaceDirection_eq_some {d : Direction} {lines lines' : List Line}
    (h : replaceDirection d lines = some lines') :
    ∃ before line after, lines = before ++ line :: after ∧ isDirection line = true ∧
      (∀ l ∈ before, isDirection l = false) ∧ lines' = before ++ directionLine d :: after := by
  induction lines generalizing lines' with
  | nil => cases h
  | cons first lines ih =>
    rw [replaceDirection] at h
    split_ifs at h with hfirst
    · exact ⟨[], first, lines, rfl, hfirst, fun l hl => (List.not_mem_nil hl).elim,
        (Option.some.inj h).symm⟩
    · obtain ⟨rest, hrest, rfl⟩ := Option.map_eq_some_iff.mp h
      obtain ⟨before, line, after, rfl, hline, hbefore, rfl⟩ := ih hrest
      refine ⟨first :: before, line, after, rfl, hline, ?_, rfl⟩
      intro l hl
      rcases List.mem_cons.mp hl with rfl | hl
      · exact Bool.not_eq_true _ ▸ hfirst
      · exact hbefore l hl

theorem replaceDirection_eq_none {d : Direction} {lines : List Line}
    (h : replaceDirection d lines = none) : ∀ line ∈ lines, isDirection line = false := by
  induction lines with
  | nil => exact fun line hline => (List.not_mem_nil hline).elim
  | cons first lines ih =>
    rw [replaceDirection] at h
    split_ifs at h with hfirst
    intro line hline
    rcases List.mem_cons.mp hline with rfl | hline
    · exact Bool.not_eq_true _ ▸ hfirst
    · exact ih (Option.map_eq_none_iff.mp h) line hline

theorem insertDirection_of_isMid (d : Direction) {lines : List Line}
    (h : ∃ line ∈ lines, isMid line = true) :
    ∃ before line after, lines = before ++ line :: after ∧ isMid line = true ∧
      insertDirection d lines = before ++ line :: directionLine d :: after := by
  induction lines with
  | nil => obtain ⟨line, hline, -⟩ := h; cases hline
  | cons first lines ih =>
    rw [insertDirection]
    split_ifs with hfirst
    · exact ⟨[], first, lines, rfl, hfirst, rfl⟩
    · obtain ⟨line, hline, hmid⟩ := h
      rcases List.mem_cons.mp hline with rfl | hline
      · exact absurd hmid hfirst
      obtain ⟨before, mid, after, rfl, hisMid, heq⟩ := ih ⟨line, hline, hmid⟩
      exact ⟨first :: before, mid, after, rfl, hisMid, by rw [heq]; rfl⟩

theorem isDirection_of_isMid {line : Line} (h : isMid line = true) : isDirection line = false := by
  obtain ⟨mid, rfl⟩ := List.isPrefixOf_iff_prefix.mp h
  simp [isDirection, removePrefix, midPrefix, directions, directionName, List.isPrefixOf]

theorem isDirection_of_isMedia {line : Line} (h : isMedia line = true) :
    isDirection line = false := by
  obtain ⟨media, rfl⟩ := List.isPrefixOf_iff_prefix.mp h
  simp [isDirection, removePrefix, directions, directionName, List.isPrefixOf]

theorem isMedia_of_isMid {line : Line} (h : isMid line = true) : isMedia line = false := by
  obtain ⟨mid, rfl⟩ := List.isPrefixOf_iff_prefix.mp h
  simp [isMedia, midPrefix, List.isPrefixOf]

theorem isMid_of_isDirection {line : Line} (h : isDirection line = true) : isMid line = false := by
  by_contra hmid
  rw [isDirection_of_isMid (Bool.not_eq_false _ ▸ hmid)] at h
  cases h

theorem rewriteSection_cases (d : Direction) {lines : List Line}
    (h : ∃ line ∈ lines, isMid line = true) :
    (∃ before line after, lines = before ++ line :: after ∧ isDirection line = true ∧
      (∀ l ∈ before, isDirection l = false) ∧
      rewriteSection d lines = before ++ directionLine d :: after) ∨
    ∃ before line after, lines = before ++ line :: after ∧ isMid line = true ∧
      (∀ l ∈ lines, isDirection l = false) ∧
      rewriteSection d lines = before ++ line :: directionLine d :: after := by
  unfold rewriteSection
  rcases hreplace : replaceDirection d lines with _ | lines'
  · obtain ⟨before, line, after, hlines, hmid, heq⟩ := insertDirection_of_isMid d h
    exact .inr ⟨before, line, after, hlines, hmid, replaceDirection_eq_none hreplace, heq⟩
  · obtain ⟨before, line, after, hlines, hdirection, hbefore, heq⟩ :=
      replaceDirection_eq_some hreplace
    exact .inl ⟨before, line, after, hlines, hdirection, hbefore, heq⟩

theorem eq_or_mem_of_mem_rewriteSection {d : Direction} {lines : List Line}
    (h : ∃ line ∈ lines, isMid line = true) {line : Line} (hline : line ∈ rewriteSection d lines) :
    line = directionLine d ∨ line ∈ lines := by
  obtain ⟨before, l, after, rfl, -, -, heq⟩ | ⟨before, l, after, rfl, -, -, heq⟩ :=
    rewriteSection_cases d h
  all_goals
    rw [heq] at hline
    simp only [List.mem_append, List.mem_cons] at hline ⊢
    tauto

theorem filter_isMid_rewriteSection (d : Direction) {lines : List Line}
    (h : ∃ line ∈ lines, isMid line = true) :
    (rewriteSection d lines).filter isMid = lines.filter isMid := by
  have hnew : isMid (directionLine d) = false := isMid_of_isDirection (isDirection_directionLine d)
  obtain ⟨before, l, after, rfl, hl, -, heq⟩ | ⟨before, l, after, rfl, hl, -, heq⟩ :=
    rewriteSection_cases d h
  · rw [heq, List.filter_append, List.filter_append, List.filter_cons_of_neg (by rw [hnew]; decide),
      List.filter_cons_of_neg (by rw [isMid_of_isDirection hl]; decide)]
  · rw [heq, List.filter_append, List.filter_append, List.filter_cons_of_pos hl,
      List.filter_cons_of_pos hl, List.filter_cons_of_neg (by rw [hnew]; decide)]

theorem typed_directionLine (d : Direction) : Typed (directionLine d) := by
  cases d <;> exact .inr rfl

theorem IsSection.rewrite {lines : List Line} (hsection : IsSection lines)
    (h : ∃ line ∈ lines, isMid line = true) (d : Direction) :
    IsSection (rewriteSection d lines) where
  starts := by
    obtain ⟨media, rest, hlines, hmedia, hrest⟩ := hsection.starts
    obtain ⟨before, l, after, rfl, hl, -, heq⟩ | ⟨before, l, after, rfl, hl, -, heq⟩ :=
      rewriteSection_cases d h
    · rw [heq]
      cases before with
      | nil =>
        -- the line that starts the section says no direction
        obtain ⟨rfl, -⟩ := List.cons.inj hlines
        rw [isDirection_of_isMedia hmedia] at hl
        cases hl
      | cons first before =>
        obtain ⟨rfl, rfl⟩ := List.cons.inj hlines
        refine ⟨first, before ++ directionLine d :: after, rfl, hmedia, ?_⟩
        intro line hline
        rcases List.mem_append.mp hline with hline | hline
        · exact hrest line (List.mem_append_left _ hline)
        rcases List.mem_cons.mp hline with rfl | hline
        · exact isMedia_directionLine d
        · exact hrest line (List.mem_append_right _ (List.mem_cons_of_mem _ hline))
    · rw [heq]
      cases before with
      | nil =>
        obtain ⟨rfl, -⟩ := List.cons.inj hlines
        rw [isMedia_of_isMid hl] at hmedia
        cases hmedia
      | cons first before =>
        obtain ⟨rfl, rfl⟩ := List.cons.inj hlines
        refine ⟨first, before ++ l :: directionLine d :: after, rfl, hmedia, ?_⟩
        intro line hline
        rcases List.mem_append.mp hline with hline | hline
        · exact hrest line (List.mem_append_left _ hline)
        rcases List.mem_cons.mp hline with rfl | hline
        · exact isMedia_of_isMid hl
        rcases List.mem_cons.mp hline with rfl | hline
        · exact isMedia_directionLine d
        · exact hrest line (List.mem_append_right _ (List.mem_cons_of_mem _ hline))
  noBreak := by
    intro line hline
    rcases eq_or_mem_of_mem_rewriteSection h hline with rfl | hline
    · exact noBreak_directionLine d
    · exact hsection.noBreak line hline
  typed := by
    intro line hline
    rcases eq_or_mem_of_mem_rewriteSection h hline with rfl | hline
    · exact typed_directionLine d
    · exact hsection.typed line hline
  one_mid := by
    rw [filter_isMid_rewriteSection d h]
    exact hsection.one_mid

/-! ### What a rewritten section says -/

def saysDirection (line : Line) : Bool :=
  line ∈ [Direction.sendrecv, .sendonly, .recvonly, .inactive].map directionLine

theorem isDirection_eq_saysDirection {line : Line} (h : Typed line) :
    isDirection line = saysDirection line := by
  unfold isDirection removePrefix
  split_ifs with hstart
  · obtain ⟨rest, rfl⟩ := List.isPrefixOf_iff_prefix.mp hstart
    simp [saysDirection, directions, directionLine]
  · -- a direction without its `a=` has no type
    have hnot : ∀ d, line ≠ directionName d := by
      rintro d rfl
      cases d <;> exact absurd h (by unfold Typed; decide)
    have hnot' : ∀ d, line ≠ directionLine d := by
      rintro d rfl
      exact hstart (List.isPrefixOf_iff_prefix.mpr ⟨_, rfl⟩)
    simp [saysDirection, directions, hnot, hnot']

theorem saysDirection_directionLine (d : Direction) : saysDirection (directionLine d) = true := by
  cases d <;> decide

theorem IsSection.filter_rewriteSection {lines : List Line} (hsection : IsSection lines)
    (h : ∃ line ∈ lines, isMid line = true) (hone : (lines.filter saysDirection).length ≤ 1)
    (d : Direction) :
    (rewriteSection d lines).filter saysDirection = [directionLine d] ∧
      (rewriteSection d lines).filter (!saysDirection ·) = lines.filter (!saysDirection ·) := by
  have hnew := saysDirection_directionLine d
  have hdirection : ∀ l ∈ lines, isDirection l = saysDirection l := fun l hl =>
    isDirection_eq_saysDirection (hsection.typed l hl)
  obtain ⟨before, l, after, rfl, hl, hbefore, heq⟩ | ⟨before, l, after, rfl, hl, hall, heq⟩ :=
    rewriteSection_cases d h
  · rw [hdirection l (by simp)] at hl
    have hb : before.filter saysDirection = [] := List.filter_eq_nil_iff.mpr fun b hb => by
      rw [← hdirection b (List.mem_append_left _ hb), hbefore b hb]
      decide
    rw [List.filter_append, hb, List.nil_append, List.filter_cons_of_pos hl,
      List.length_cons] at hone
    have ha : after.filter saysDirection = [] := List.length_eq_zero_iff.mp (by omega)
    refine ⟨?_, ?_⟩
    · rw [heq, List.filter_append, hb, List.nil_append, List.filter_cons_of_pos hnew, ha]
    · rw [heq, List.filter_append, List.filter_append,
        List.filter_cons_of_neg (by rw [hnew]; decide),
        List.filter_cons_of_neg (by rw [hl]; decide)]
  · have hno : ∀ b ∈ before ++ l :: after, ¬ saysDirection b = true := fun b hb => by
      rw [← hdirection b hb, hall b hb]
      decide
    have hno' := List.filter_eq_nil_iff.mpr hno
    rw [List.filter_append, List.append_eq_nil_iff] at hno'
    have hl' : saysDirection l = false := Bool.not_eq_true _ ▸ hno l (by simp)
    rw [List.filter_cons_of_neg (by rw [hl']; decide)] at hno'
    refine ⟨?_, ?_⟩
    · rw [heq, List.filter_append, hno'.1, List.nil_append,
        List.filter_cons_of_neg (by rw [hl']; decide),
        List.filter_cons_of_pos hnew, hno'.2]
    · rw [heq, List.filter_append, List.filter_append, List.filter_cons_of_pos (by rw [hl']; rfl),
        List.filter_cons_of_neg (by rw [hnew]; decide), List.filter_cons_of_pos (by rw [hl']; rfl)]

theorem IsSection.length_filter_rewriteSection {lines : List Line} (hsection : IsSection lines)
    (h : ∃ line ∈ lines, isMid line = true) (htwo : 1 < (lines.filter saysDirection).length)
    (d : Direction) : 1 < ((rewriteSection d lines).filter saysDirection).length := by
  have hnew := saysDirection_directionLine d
  have hdirection : ∀ l ∈ lines, isDirection l = saysDirection l := fun l hl =>
    isDirection_eq_saysDirection (hsection.typed l hl)
  obtain ⟨before, l, after, rfl, hl, -, heq⟩ | ⟨before, l, after, rfl, -, hall, heq⟩ :=
    rewriteSection_cases d h
  · rw [hdirection l (by simp)] at hl
    rw [List.filter_append, List.length_append, List.filter_cons_of_pos hl,
      List.length_cons] at htwo
    rw [heq, List.filter_append, List.length_append, List.filter_cons_of_pos hnew, List.length_cons]
    exact htwo
  · have hno : (before ++ l :: after).filter saysDirection = [] :=
      List.filter_eq_nil_iff.mpr fun b hb => by
        rw [← hdirection b hb, hall b hb]
        decide
    rw [hno] at htwo
    simp at htwo

/-! ### The sections of a description -/

/-- The m-sections of a description: no two say the same mid. -/
structure AreSections (sections : List (List Line)) : Prop where
  isSection : ∀ lines ∈ sections, IsSection lines
  distinct_mids : sections.Pairwise fun lines lines' =>
    ∀ line ∈ lines, isMid line = true → line ∉ lines'

theorem isMid_midLine (mid : String) : isMid (midLine mid) = true :=
  List.isPrefixOf_iff_prefix.mpr ⟨_, rfl⟩

theorem exists_isMid {mid : String} {lines : List Line} (h : midLine mid ∈ lines) :
    ∃ line ∈ lines, isMid line = true :=
  ⟨_, h, isMid_midLine mid⟩

theorem midLine_injective : Function.Injective midLine := by
  intro mid mid' h
  exact String.toList_inj.mp (List.append_cancel_left h)

theorem IsSection.mid_eq {lines : List Line} (hsection : IsSection lines) {mid mid' : String}
    (h : midLine mid ∈ lines) (h' : midLine mid' ∈ lines) : mid = mid' := by
  have hmem : midLine mid ∈ lines.filter isMid := List.mem_filter.mpr ⟨h, isMid_midLine mid⟩
  have hmem' : midLine mid' ∈ lines.filter isMid := List.mem_filter.mpr ⟨h', isMid_midLine mid'⟩
  have hone := hsection.one_mid
  cases hfilter : lines.filter isMid with
  | nil => rw [hfilter] at hmem; cases hmem
  | cons line rest =>
    rw [hfilter, List.length_cons] at hone
    have hrest : rest = [] := List.length_eq_zero_iff.mp (by omega)
    rw [hfilter, hrest, List.mem_singleton] at hmem hmem'
    exact midLine_injective (hmem.trans hmem'.symm)

def rewriteIf (mid : String) (d : Direction) (lines : List Line) : List Line :=
  if midLine mid ∈ lines then rewriteSection d lines else lines

theorem filter_isMid_rewriteIf (mid : String) (d : Direction) (lines : List Line) :
    (rewriteIf mid d lines).filter isMid = lines.filter isMid := by
  unfold rewriteIf
  split_ifs with h
  · exact filter_isMid_rewriteSection d (exists_isMid h)
  · rfl

theorem mem_rewriteIf_iff {mid : String} {d : Direction} {lines : List Line} {line : Line}
    (hline : isMid line = true) : line ∈ rewriteIf mid d lines ↔ line ∈ lines := by
  have hfilter : line ∈ (rewriteIf mid d lines).filter isMid ↔ line ∈ lines.filter isMid := by
    rw [filter_isMid_rewriteIf]
  rwa [List.mem_filter, List.mem_filter, and_iff_left hline, and_iff_left hline] at hfilter

theorem IsSection.rewriteIf {lines : List Line} (h : IsSection lines) (mid : String)
    (d : Direction) : IsSection (rewriteIf mid d lines) := by
  unfold SdpText.rewriteIf
  split_ifs with hmid
  · exact h.rewrite (exists_isMid hmid) d
  · exact h

theorem AreSections.map_rewriteIf {sections : List (List Line)} (h : AreSections sections)
    (mid : String) (d : Direction) : AreSections (sections.map (rewriteIf mid d)) where
  isSection := by
    intro lines hlines
    obtain ⟨old, hold, rfl⟩ := List.mem_map.mp hlines
    exact (h.isSection old hold).rewriteIf mid d
  distinct_mids := by
    rw [List.pairwise_map]
    refine h.distinct_mids.imp ?_
    intro lines lines' hne line hline hmid
    rw [mem_rewriteIf_iff hmid] at hline ⊢
    exact hne line hline hmid

theorem AreSections.rewriteFirst_eq {sections : List (List Line)} (h : AreSections sections)
    (mid : String) (d : Direction) :
    rewriteFirst mid d sections = sections.map (rewriteIf mid d) := by
  obtain ⟨-, hdistinct⟩ := h
  induction sections with
  | nil => rfl
  | cons lines sections ih =>
    rw [List.pairwise_cons] at hdistinct
    rw [rewriteFirst, List.map_cons, rewriteIf]
    split_ifs with hmid
    · have hrest : sections.map (rewriteIf mid d) = sections := by
        refine (List.map_congr_left ?_).trans (List.map_id _)
        intro lines' hlines'
        exact if_neg (hdistinct.1 lines' hlines' _ hmid (isMid_midLine mid))
      rw [hrest]
    · rw [ih hdistinct.2]

/-! ### The loop over the tracks, on sections -/

def restateSection (paused : Finset String) (active : Direction) (tracks : List MappedTrack)
    (lines : List Line) : List Line :=
  tracks.foldl (fun lines track =>
    if track.out then rewriteIf track.mid (trackDirection paused active track) lines else lines)
    lines

theorem restateSection_cons (paused : Finset String) (active : Direction) (track : MappedTrack)
    (tracks : List MappedTrack) :
    restateSection paused active (track :: tracks) = restateSection paused active tracks ∘
      if track.out then rewriteIf track.mid (trackDirection paused active track) else id := by
  funext lines
  rw [restateSection, List.foldl_cons]
  cases track.out <;> rfl

theorem restateSection_of_forall {paused : Finset String} {active : Direction}
    {tracks : List MappedTrack} {lines : List Line}
    (h : ∀ track ∈ tracks, track.out = true → midLine track.mid ∉ lines) :
    restateSection paused active tracks lines = lines := by
  unfold restateSection
  induction tracks with
  | nil => rfl
  | cons track tracks ih =>
    have hfirst : (if track.out then rewriteIf track.mid (trackDirection paused active track) lines
        else lines) = lines := by
      split_ifs with hout
      · exact if_neg (h track List.mem_cons_self hout)
      · rfl
    rw [List.foldl_cons, hfirst]
    exact ih fun t ht => h t (List.mem_cons_of_mem _ ht)

theorem restateSection_of_mem {paused : Finset String} {active : Direction}
    {tracks : List MappedTrack} (hnodup : (tracks.map MappedTrack.mid).Nodup) {lines : List Line}
    (hsection : IsSection lines) {track : MappedTrack} (htrack : track ∈ tracks)
    (hout : track.out = true) (hmid : midLine track.mid ∈ lines) :
    restateSection paused active tracks lines =
      rewriteSection (trackDirection paused active track) lines := by
  induction tracks with
  | nil => cases htrack
  | cons first tracks ih =>
    rw [List.map_cons, List.nodup_cons] at hnodup
    rw [restateSection, List.foldl_cons]
    rcases List.mem_cons.mp htrack with rfl | htrack
    · rw [if_pos hout, rewriteIf, if_pos hmid]
      -- the later tracks have other mids
      refine restateSection_of_forall fun t ht _ hmem => ?_
      have hsame : midLine t.mid ∈
          rewriteIf track.mid (trackDirection paused active track) lines := by
        rwa [rewriteIf, if_pos hmid]
      rw [mem_rewriteIf_iff (isMid_midLine t.mid)] at hsame
      exact hnodup.1 (hsection.mid_eq hmid hsame ▸ List.mem_map_of_mem ht)
    · have hne : midLine first.mid ∉ lines := fun hfirst =>
        hnodup.1 (hsection.mid_eq hfirst hmid ▸ List.mem_map_of_mem htrack)
      have hfirst : (if first.out then
          rewriteIf first.mid (trackDirection paused active first) lines else lines) = lines := by
        split_ifs
        · exact if_neg hne
        · rfl
      rw [hfirst]
      exact ih hnodup.2 htrack

theorem AreSections.map_restateSection {sections : List (List Line)} (h : AreSections sections)
    (paused : Finset String) (active : Direction) (tracks : List MappedTrack) :
    AreSections (sections.map (restateSection paused active tracks)) := by
  induction tracks generalizing sections with
  | nil =>
    rw [show restateSection paused active [] = id from rfl, List.map_id]
    exact h
  | cons track tracks ih =>
    rw [restateSection_cons, ← List.map_map]
    refine ih ?_
    split_ifs
    · exact h.map_rewriteIf track.mid _
    · rwa [List.map_id]

theorem restateSection_perm {paused : Finset String} {active : Direction}
    {tracks tracks' : List MappedTrack} (hnodup : (tracks.map MappedTrack.mid).Nodup)
    (hperm : tracks'.Perm tracks) {lines : List Line} (hsection : IsSection lines) :
    restateSection paused active tracks' lines = restateSection paused active tracks lines := by
  by_cases h : ∀ track ∈ tracks, track.out = true → midLine track.mid ∉ lines
  · rw [restateSection_of_forall h,
      restateSection_of_forall fun t ht => h t (hperm.mem_iff.mp ht)]
  · push Not at h
    obtain ⟨track, htrack, hout, hmid⟩ := h
    have hnodup' : (tracks'.map MappedTrack.mid).Nodup := (hperm.map _).nodup_iff.mpr hnodup
    rw [restateSection_of_mem hnodup hsection htrack hout hmid,
      restateSection_of_mem hnodup' hsection (hperm.mem_iff.mpr htrack) hout hmid]

/-! ### The loop over the tracks, on texts -/

section Texts

variable {head : List Line} {sections : List (List Line)} {paused : Finset String}
  {active : Direction} {tracks : List MappedTrack}

/-- What may stand before the m-sections. -/
def IsHead (head : List Line) : Prop :=
  head ≠ [] ∧ ∀ line ∈ head, NoBreak line ∧ isMedia line = false

theorem AreSections.noBreak (h : AreSections sections) :
    ∀ line ∈ sections.flatten, NoBreak line := by
  intro line hline
  obtain ⟨lines, hlines, hmem⟩ := List.mem_flatten.mp hline
  exact (h.isSection lines hlines).noBreak line hmem

theorem splitCrlf_text (hhead : IsHead head) (h : AreSections sections) :
    splitCrlf (joinCrlf (head ++ sections.flatten)) = head ++ sections.flatten := by
  refine splitCrlf_joinCrlf (List.append_ne_nil_of_left_ne_nil hhead.1 _) ?_
  intro line hline
  rcases List.mem_append.mp hline with hline | hline
  · exact (hhead.2 line hline).1
  · exact h.noBreak line hline

theorem sectionsOf_text (hhead : IsHead head) (h : AreSections sections) :
    sectionsOf (splitCrlf (joinCrlf (head ++ sections.flatten))) = (head, sections) := by
  rw [splitCrlf_text hhead h]
  exact Lists.sectionsBy_append_flatten (fun line hline => (hhead.2 line hline).2)
    fun lines hlines => (h.isSection lines hlines).starts

theorem setMediaDirection_text (hhead : IsHead head) (h : AreSections sections)
    (hne : sections ≠ []) (mid : String) (d : Direction) :
    setMediaDirection (joinCrlf (head ++ sections.flatten)) mid d =
      some (joinCrlf (head ++ (sections.map (rewriteIf mid d)).flatten)) := by
  rw [setMediaDirection, sectionsOf_text hhead h]
  cases sections with
  | nil => exact (hne rfl).elim
  | cons lines sections => rw [← h.rewriteFirst_eq]

theorem foldlM_restateTrack (hhead : IsHead head) (h : AreSections sections)
    (hne : sections ≠ []) :
    tracks.foldlM (restateTrack paused active) (joinCrlf (head ++ sections.flatten)) =
      some (joinCrlf
        (head ++ (sections.map (restateSection paused active tracks)).flatten)) := by
  induction tracks generalizing sections with
  | nil =>
    rw [show restateSection paused active [] = id from rfl, List.map_id]
    rfl
  | cons track tracks ih =>
    rw [List.foldlM_cons, restateTrack]
    by_cases hout : track.out = true
    · have hrest := ih (h.map_rewriteIf track.mid (trackDirection paused active track))
        (List.map_eq_nil_iff.not.mpr hne)
      rw [if_pos hout, setMediaDirection_text hhead h hne, Option.bind_eq_bind, Option.bind_some,
        hrest, List.map_map, restateSection_cons, if_pos hout]
    · rw [if_neg hout, Option.bind_eq_bind, Option.bind_some, ih h hne, restateSection_cons,
        if_neg hout, Function.comp_id]

theorem foldlM_restateTrack_of_out_eq_false (h : ∀ track ∈ tracks, track.out = false)
    (sdp : List Char) : tracks.foldlM (restateTrack paused active) sdp = some sdp := by
  induction tracks with
  | nil => rfl
  | cons track tracks ih =>
    rw [List.foldlM_cons, restateTrack, if_neg (by rw [h track List.mem_cons_self]; decide)]
    exact ih fun t ht => h t (List.mem_cons_of_mem _ ht)

theorem out_eq_false_of_foldlM {sdp sdp' : List Char} (hsdp : (sectionsOf (splitCrlf sdp)).2 = [])
    (h : tracks.foldlM (restateTrack paused active) sdp = some sdp') :
    (∀ track ∈ tracks, track.out = false) ∧ sdp' = sdp := by
  induction tracks with
  | nil => exact ⟨fun track htrack => (List.not_mem_nil htrack).elim, (Option.some.inj h).symm⟩
  | cons track tracks ih =>
    rw [List.foldlM_cons, restateTrack] at h
    by_cases hout : track.out = true
    · have hnone : setMediaDirection sdp track.mid (trackDirection paused active track) = none := by
        unfold setMediaDirection
        rcases hsections : sectionsOf (splitCrlf sdp) with ⟨session, sections⟩
        rw [hsections] at hsdp
        obtain rfl : sections = [] := hsdp
        rfl
      rw [if_pos hout, hnone] at h
      cases h
    · rw [if_neg hout] at h
      obtain ⟨hall, heq⟩ := ih h
      refine ⟨?_, heq⟩
      intro t ht
      rcases List.mem_cons.mp ht with rfl | ht
      · exact Bool.not_eq_true _ ▸ hout
      · exact hall t ht

end Texts

/-! ### The version of a session -/

def number (digits : List Char) : ℕ := Json.ofDigits (digits.filterMap Json.digit?)

theorem toNat_lt_of_digit? {c : Char} (h : (Json.digit? c).isSome = true) : c.toNat < 128 := by
  unfold Json.digit? at h
  split_ifs at h with hc
  · omega
  · cases h

theorem readNat_of_digits (unicode : Unicode) {digits : List Char}
    (h : ∀ c ∈ digits, (Json.digit? c).isSome = true) :
    readNat unicode digits =
      if digits.length ≤ Json.maxDigits then some (number digits) else none := by
  have hascii : ∀ c ∈ digits, unicode.decimal? c = Json.digit? c := fun c hc =>
    unicode.decimal?_of_ascii c (toNat_lt_of_digit? (h c hc))
  have hdecimal : ∀ c ∈ digits, unicode.isDecimal c = true := fun c hc => by
    rw [Unicode.isDecimal, hascii c hc, h c hc]
  rw [readNat_eq unicode hdecimal, Unicode.value, List.filterMap_congr hascii]
  rfl

theorem digit?_of_mem_decimal {n : ℕ} {c : Char} (hc : c ∈ Json.decimal n) :
    (Json.digit? c).isSome = true := by
  obtain ⟨d, hd, rfl⟩ := List.mem_map.mp hc
  rw [Json.digit?_digitChar d (Json.lt_of_mem_digitsOf hd)]
  rfl

theorem number_decimal (n : ℕ) : number (Json.decimal n) = n := by
  have hread : ∀ digits : List ℕ, (∀ d ∈ digits, d < 10) →
      (digits.map Json.digitChar).filterMap Json.digit? = digits := by
    intro digits hdigits
    induction digits with
    | nil => rfl
    | cons d digits ih =>
      rw [List.map_cons, List.filterMap_cons_some (Json.digit?_digitChar d
        (hdigits d List.mem_cons_self)), ih fun e he => hdigits e (List.mem_cons_of_mem _ he)]
  rw [number, Json.decimal, hread _ fun d hd => Json.lt_of_mem_digitsOf hd,
    Json.ofDigits_digitsOf]

/-- The fields of an origin line: its version is a number, and no other field of it matters. -/
structure Origin where
  user : List Char
  id : List Char
  version : List Char
  fields : List (List Char)
  version_ne_nil : version ≠ []
  version_digits : ∀ c ∈ version, (Json.digit? c).isSome = true
  noSpace : ∀ field ∈ user :: id :: fields, ' ' ∉ field
  noBreak : ∀ field ∈ user :: id :: fields, NoBreak field

namespace Origin

variable (origin : Origin) {version : List Char}

def line (version : List Char) : Line :=
  [' '].intercalate ((['o', '='] ++ origin.user) :: origin.id :: version :: origin.fields)

theorem not_mem_of_digits {digits : List Char} (h : ∀ c ∈ digits, (Json.digit? c).isSome = true)
    {c : Char} (hc : Json.digit? c = none) : c ∉ digits := by
  intro hmem
  have hsome := h c hmem
  rw [hc] at hsome
  cases hsome

theorem splitOn_line (h : ∀ c ∈ version, (Json.digit? c).isSome = true) :
    (origin.line version).splitOn ' ' =
      (['o', '='] ++ origin.user) :: origin.id :: version :: origin.fields := by
  refine List.splitOn_intercalate ' ' ?_ (List.cons_ne_nil _ _)
  intro field hfield
  have hspace := origin.noSpace
  simp only [List.mem_cons] at hfield hspace
  rcases hfield with rfl | rfl | rfl | hfield
  · intro hmem
    rcases List.mem_append.mp hmem with hmem | hmem
    · exact absurd hmem (by decide)
    · exact hspace _ (.inl rfl) hmem
  · exact hspace _ (.inr (.inl rfl))
  · exact not_mem_of_digits h (by decide)
  · exact hspace field (.inr (.inr hfield))

theorem line_injective {version version' : List Char}
    (h : ∀ c ∈ version, (Json.digit? c).isSome = true)
    (h' : ∀ c ∈ version', (Json.digit? c).isSome = true)
    (heq : origin.line version = origin.line version') : version = version' := by
  have hsplit := origin.splitOn_line h
  rw [heq, origin.splitOn_line h'] at hsplit
  simp only [List.cons.injEq, true_and, and_true] at hsplit
  exact hsplit.symm

theorem noBreak_line (h : ∀ c ∈ version, (Json.digit? c).isSome = true) :
    NoBreak (origin.line version) := by
  have hchar : ∀ c, c = '\r' ∨ c = '\n' → c ∉ origin.line version := by
    intro c hc hmem
    have hbreak : ∀ field ∈ origin.user :: origin.id :: origin.fields, c ∉ field := by
      intro field hfield
      rcases hc with rfl | rfl
      · exact (origin.noBreak field hfield).1
      · exact (origin.noBreak field hfield).2
    have hnone : Json.digit? c = none := by rcases hc with rfl | rfl <;> decide
    simp only [List.mem_cons] at hbreak
    have hspace : c ∉ [' '] := by rcases hc with rfl | rfl <;> decide
    obtain ⟨field, hfield, hcf⟩ := mem_of_mem_intercalate hspace hmem
    simp only [List.mem_cons] at hfield
    rcases hfield with rfl | rfl | rfl | hfield
    · rcases List.mem_append.mp hcf with hcf | hcf
      · rcases hc with rfl | rfl <;> exact absurd hcf (by decide)
      · exact hbreak _ (.inl rfl) hcf
    · exact hbreak _ (.inr (.inl rfl)) hcf
    · exact not_mem_of_digits h hnone hcf
    · exact hbreak field (.inr (.inr hfield)) hcf
  exact ⟨hchar '\r' (.inl rfl), hchar '\n' (.inr rfl)⟩

theorem isOrigin_line (version : List Char) : isOrigin (origin.line version) = true := by
  rw [line, List.intercalate_cons_cons]
  rfl

theorem isMedia_line (version : List Char) : isMedia (origin.line version) = false := by
  rw [line, List.intercalate_cons_cons]
  rfl

/-- `n` more than a version is a number that Python reads and writes. -/
def Fits (n : ℕ) : Prop :=
  origin.version.length ≤ Json.maxDigits ∧
    (Json.digitsOf (number origin.version + n)).length ≤ Json.maxDigits

instance (n : ℕ) : Decidable (origin.Fits n) :=
  inferInstanceAs (Decidable (_ ∧ _))

theorem bumpOrigin_line (unicode : Unicode) (n : ℕ) :
    bumpOrigin unicode n (origin.line origin.version) =
      if origin.Fits n then some (origin.line (Json.decimal (number origin.version + n)))
      else none := by
  have hall : origin.version.all unicode.isDigit = true := by
    rw [List.all_eq_true]
    intro c hc
    have hdigit := origin.version_digits c hc
    rwa [unicode.isDigit_of_ascii c (toNat_lt_of_digit? hdigit)]
  have hdigits : origin.version ≠ [] ∧ origin.version.all unicode.isDigit = true :=
    ⟨origin.version_ne_nil, hall⟩
  simp only [bumpOrigin, origin.splitOn_line origin.version_digits, if_pos hdigits,
    readNat_of_digits unicode origin.version_digits]
  by_cases hread : origin.version.length ≤ Json.maxDigits
  · rw [if_pos hread, Option.bind_eq_bind, Option.bind_some, writeNat]
    by_cases hwrite : (Json.digitsOf (number origin.version + n)).length ≤ Json.maxDigits
    · rw [if_pos hwrite, if_pos ⟨hread, hwrite⟩]
      rfl
    · rw [if_neg hwrite, if_neg fun hfits => hwrite hfits.2]
      rfl
  · rw [if_neg hread, if_neg fun hfits => hread hfits.1]
    rfl

end Origin

/-! ### Descriptions -/

inductive LineEnd where
  | crlf
  | lf
  deriving DecidableEq

def LineEnd.text : LineEnd → List Char
  | .crlf => ['\r', '\n']
  | .lf => ['\n']

def LineEnd.split : LineEnd → List Char → List Line
  | .crlf => splitCrlf
  | .lf => List.splitOn '\n'

/-- A description: the line of the protocol's version, the origin line, the other lines of the
session, and the m-sections. -/
structure Description where
  lineEnd : LineEnd
  origin : Origin
  session : List Line
  sections : List (List Line)
  noBreak : ∀ line ∈ session, NoBreak line
  isMedia_session : ∀ line ∈ session, isMedia line = false
  areSections : AreSections sections

namespace Description

variable (d : Description)

def head (version : List Char) : List Line :=
  ['v', '=', '0'] :: d.origin.line version :: d.session

def text : List Char :=
  d.lineEnd.text.intercalate (d.head d.origin.version ++ d.sections.flatten)

theorem isHead_head {version : List Char} (h : ∀ c ∈ version, (Json.digit? c).isSome = true) :
    IsHead (d.head version) := by
  refine ⟨List.cons_ne_nil _ _, ?_⟩
  intro line hline
  simp only [head, List.mem_cons] at hline
  rcases hline with rfl | rfl | hline
  · exact ⟨⟨by decide, by decide⟩, by decide⟩
  · exact ⟨d.origin.noBreak_line h, d.origin.isMedia_line version⟩
  · exact ⟨d.noBreak line hline, d.isMedia_session line hline⟩

theorem noBreak_lines : ∀ line ∈ d.head d.origin.version ++ d.sections.flatten, NoBreak line := by
  intro line hline
  rcases List.mem_append.mp hline with hline | hline
  · exact ((d.isHead_head d.origin.version_digits).2 line hline).1
  · exact d.areSections.noBreak line hline

theorem text_of_crlf (h : d.lineEnd = .crlf) :
    d.text = joinCrlf (d.head d.origin.version ++ d.sections.flatten) := by
  rw [text, h]
  rfl

theorem splitCrlf_text_of_lf (h : d.lineEnd = .lf) : splitCrlf d.text = [d.text] := by
  refine splitCrlf_of_notMem ?_
  rw [text, h]
  intro hmem
  obtain ⟨line, hline, hcr⟩ := mem_of_mem_intercalate (by decide) hmem
  exact (d.noBreak_lines line hline).1 hcr

theorem split_text_of_lf (h : d.lineEnd = .lf) :
    d.lineEnd.split d.text = d.head d.origin.version ++ d.sections.flatten := by
  rw [text, h]
  exact List.splitOn_intercalate '\n' (fun line hline => (d.noBreak_lines line hline).2)
    (List.cons_ne_nil _ _)

theorem exists_text_eq_cons (h : d.lineEnd = .lf) : ∃ rest, d.text = 'v' :: rest := by
  rw [text, h, head, List.cons_append, List.cons_append, List.intercalate_cons_cons]
  exact ⟨_, rfl⟩

end Description

theorem bumpSessionVersion_of_crlf (unicode : Unicode) {d : Description} (h : d.lineEnd = .crlf)
    (n : ℕ) :
    bumpSessionVersion unicode d.text n =
      if d.origin.Fits n then
        some (joinCrlf (d.head (Json.decimal (number d.origin.version + n)) ++ d.sections.flatten))
      else none := by
  have hversion : isOrigin ['v', '=', '0'] = false := by decide
  rw [bumpSessionVersion, d.text_of_crlf h,
    splitCrlf_text (d.isHead_head d.origin.version_digits) d.areSections, Description.head,
    List.cons_append, List.cons_append, bumpLines, if_neg (by rw [hversion]; decide), bumpLines,
    if_pos (d.origin.isOrigin_line _), d.origin.bumpOrigin_line]
  split_ifs <;> rfl

theorem bumpSessionVersion_of_lf (unicode : Unicode) {d : Description} (h : d.lineEnd = .lf)
    (n : ℕ) : bumpSessionVersion unicode d.text n = some d.text := by
  obtain ⟨rest, hrest⟩ := d.exists_text_eq_cons h
  have hnot : isOrigin d.text = false := by
    rw [hrest]
    rfl
  rw [bumpSessionVersion, d.splitCrlf_text_of_lf h, bumpLines, if_neg (by rw [hnot]; decide)]
  exact congrArg some List.intercalate_singleton

theorem sectionsOf_of_lf {d : Description} (h : d.lineEnd = .lf) :
    (sectionsOf (splitCrlf d.text)).2 = [] := by
  obtain ⟨rest, hrest⟩ := d.exists_text_eq_cons h
  have hnot : isMedia d.text = false := by
    rw [hrest]
    rfl
  rw [d.splitCrlf_text_of_lf h, sectionsOf, Lists.sectionsBy, if_neg (by rw [hnot]; decide)]
  rfl

/-! ### What a pass makes of a description -/

structure TrackMap where
  tracks : List MappedTrack
  nodup_mids : (tracks.map MappedTrack.mid).Nodup

/-- A section as a pass is to leave it: one that an outbound track names says the track's direction
and no other, and has its other lines as they were; any other section is as it was. -/
def RestatedSection (paused : Finset String) (active : Direction) (tracks : List MappedTrack)
    (lines lines' : List Line) : Prop :=
  (∀ track ∈ tracks, track.out = true → midLine track.mid ∈ lines →
    lines'.filter saysDirection = [directionLine (trackDirection paused active track)] ∧
      lines'.filter (!saysDirection ·) = lines.filter (!saysDirection ·)) ∧
  ((∀ track ∈ tracks, track.out = true → midLine track.mid ∉ lines) → lines' = lines)

/-- A text as a pass is to make it of a description: a larger version, the sections restated, and
everything else as it was. -/
def Restated (paused : Finset String) (active : Direction) (tracks : List MappedTrack)
    (d : Description) (text : List Char) : Prop :=
  ∃ version, number d.origin.version < version ∧
    (sectionsOf (d.lineEnd.split text)).1 = d.head (Json.decimal version) ∧
    List.Forall₂ (RestatedSection paused active tracks) d.sections
      (sectionsOf (d.lineEnd.split text)).2

structure Restatable (tracks : List MappedTrack) (n : ℕ) (d : Description) : Prop where
  /-- Its lines end as the program takes them to. -/
  crlf : d.lineEnd = .crlf
  fits : d.origin.Fits n
  /-- It has an m-section, or there is no outbound track. -/
  some_section : d.sections = [] → ∀ track ∈ tracks, track.out = false
  /-- No section that an outbound track names says two directions. -/
  one_direction : ∀ lines ∈ d.sections, ∀ track ∈ tracks, track.out = true →
    midLine track.mid ∈ lines → (lines.filter saysDirection).length ≤ 1

/-- What a pass makes of one of its two descriptions, unless it raises. -/
def restate (unicode : Unicode) (tracks : List MappedTrack) (paused : Finset String)
    (active : Direction) (n : ℕ) (sdp : List Char) : Option (List Char) :=
  (bumpSessionVersion unicode sdp n).bind fun sdp => tracks.foldlM (restateTrack paused active) sdp

section Restate

variable {unicode : Unicode} {tracks : List MappedTrack} {paused : Finset String}
  {active : Direction} {n : ℕ} {d : Description}

theorem restate_of_restatable (h : Restatable tracks n d) :
    restate unicode tracks paused active n d.text =
      some (joinCrlf (d.head (Json.decimal (number d.origin.version + n)) ++
        (d.sections.map (restateSection paused active tracks)).flatten)) := by
  have hhead := d.isHead_head fun c hc =>
    digit?_of_mem_decimal (n := number d.origin.version + n) hc
  rw [restate, bumpSessionVersion_of_crlf unicode h.crlf, if_pos h.fits, Option.bind_some]
  by_cases hsections : d.sections = []
  · rw [foldlM_restateTrack_of_out_eq_false (h.some_section hsections), hsections]
    rfl
  · exact foldlM_restateTrack hhead d.areSections hsections

theorem restatedSection_restateSection (hnodup : (tracks.map MappedTrack.mid).Nodup)
    {lines : List Line} (hsection : IsSection lines)
    (hone : ∀ track ∈ tracks, track.out = true → midLine track.mid ∈ lines →
      (lines.filter saysDirection).length ≤ 1) :
    RestatedSection paused active tracks lines (restateSection paused active tracks lines) := by
  refine ⟨?_, fun h => restateSection_of_forall h⟩
  intro track htrack hout hmid
  rw [restateSection_of_mem hnodup hsection htrack hout hmid]
  exact hsection.filter_rewriteSection (exists_isMid hmid) (hone track htrack hout hmid) _

variable (unicode paused active) in
/-- A pass restates a description in whatever order it takes the tracks, just if it can. -/
theorem restate_iff (hnodup : (tracks.map MappedTrack.mid).Nodup) (hn : 0 < n) :
    (∃ text, (∀ tracks', tracks'.Perm tracks →
      restate unicode tracks' paused active n d.text = some text) ∧
      Restated paused active tracks d text) ↔ Restatable tracks n d := by
  constructor
  · rintro ⟨text, htext, version, hversion, hhead, hsections⟩
    have hself := htext tracks (.refl tracks)
    rw [restate] at hself
    cases hend : d.lineEnd with
    | lf =>
      -- the version would have to be larger than itself
      rw [bumpSessionVersion_of_lf unicode hend, Option.bind_some] at hself
      obtain ⟨-, rfl⟩ := out_eq_false_of_foldlM (sectionsOf_of_lf hend) hself
      have hsplit := Lists.sectionsBy_append_flatten
        (fun line hline => ((d.isHead_head d.origin.version_digits).2 line hline).2)
        fun lines hlines => (d.areSections.isSection lines hlines).starts
      rw [d.split_text_of_lf hend, sectionsOf, hsplit] at hhead
      simp only [Description.head, List.cons.injEq, true_and, and_true] at hhead
      have heq := d.origin.line_injective d.origin.version_digits
        (fun c hc => digit?_of_mem_decimal hc) hhead
      rw [heq, number_decimal] at hversion
      exact absurd hversion (Nat.lt_irrefl version)
    | crlf =>
      rw [bumpSessionVersion_of_crlf unicode hend] at hself
      by_cases hfits : d.origin.Fits n
      · rw [if_pos hfits, Option.bind_some] at hself
        have hhead' := d.isHead_head fun c hc =>
          digit?_of_mem_decimal (n := number d.origin.version + n) hc
        have hsome : d.sections = [] → ∀ track ∈ tracks, track.out = false := by
          intro hnil
          refine (out_eq_false_of_foldlM ?_ hself).1
          rw [sectionsOf_text hhead' d.areSections]
          exact hnil
        refine ⟨hend, hfits, hsome, ?_⟩
        intro lines hlines track htrack hout hmid
        have hne : d.sections ≠ [] := List.ne_nil_of_mem hlines
        rw [foldlM_restateTrack hhead' d.areSections hne] at hself
        have hsplit := sectionsOf_text hhead'
          (d.areSections.map_restateSection paused active tracks)
        rw [Option.some.inj hself] at hsplit
        rw [hend, LineEnd.split, hsplit, List.forall₂_map_right_iff, List.forall₂_same] at hsections
        by_contra hone
        have hsection := d.areSections.isSection lines hlines
        have htwo := hsection.length_filter_rewriteSection (exists_isMid hmid) (not_le.mp hone)
          (trackDirection paused active track)
        rw [← restateSection_of_mem hnodup hsection htrack hout hmid,
          ((hsections lines hlines).1 track htrack hout hmid).1, List.length_singleton] at htwo
        exact absurd htwo (Nat.lt_irrefl 1)
      · rw [if_neg hfits] at hself
        cases hself
  · intro h
    refine ⟨joinCrlf (d.head (Json.decimal (number d.origin.version + n)) ++
      (d.sections.map (restateSection paused active tracks)).flatten), ?_, ?_⟩
    · intro tracks' hperm
      have h' : Restatable tracks' n d := ⟨h.crlf, h.fits,
        fun hnil t ht => h.some_section hnil t (hperm.mem_iff.mp ht),
        fun lines hlines t ht => h.one_direction lines hlines t (hperm.mem_iff.mp ht)⟩
      rw [restate_of_restatable h']
      have hsame : d.sections.map (restateSection paused active tracks') =
          d.sections.map (restateSection paused active tracks) :=
        List.map_congr_left fun lines hlines =>
          restateSection_perm hnodup hperm (d.areSections.isSection lines hlines)
      rw [hsame]
    · have hsplit := sectionsOf_text
        (d.isHead_head fun c hc => digit?_of_mem_decimal (n := number d.origin.version + n) hc)
        (d.areSections.map_restateSection paused active tracks)
      refine ⟨number d.origin.version + n, by omega, ?_, ?_⟩
      · rw [h.crlf, LineEnd.split, hsplit]
      · rw [h.crlf, LineEnd.split, hsplit, List.forall₂_map_right_iff, List.forall₂_same]
        intro lines hlines
        exact restatedSection_restateSection hnodup (d.areSections.isSection lines hlines)
          (h.one_direction lines hlines)

end Restate

theorem foldlM_pair (paused : Finset String) {active active' : Direction}
    (tracks : List MappedTrack) (offer answer : List Char) (sdps : List Char × List Char) :
    tracks.foldlM (fun sdps track => do
        let offer ← restateTrack paused active sdps.1 track
        let answer ← restateTrack paused active' sdps.2 track
        some (offer, answer)) (offer, answer) = some sdps ↔
      tracks.foldlM (restateTrack paused active) offer = some sdps.1 ∧
        tracks.foldlM (restateTrack paused active') answer = some sdps.2 := by
  induction tracks generalizing offer answer with
  | nil =>
    simp only [List.foldlM_nil, Option.pure_def, Option.some.injEq, Prod.ext_iff]
  | cons track tracks ih =>
    rw [List.foldlM_cons, List.foldlM_cons, List.foldlM_cons]
    cases hoffer : restateTrack paused active offer track with
    | none => simp
    | some offer' =>
      cases hanswer : restateTrack paused active' answer track with
      | none => simp
      | some answer' =>
        simp only [Option.bind_eq_bind, Option.bind_some]
        exact ih offer' answer'

theorem descriptions_eq_some_iff (unicode : Unicode) (tracks : List MappedTrack)
    (paused : Finset String) (renegotiations : ℕ) (offer answer : List Char)
    (sdps : List Char × List Char) :
    descriptions unicode tracks paused renegotiations offer answer = some sdps ↔
      restate unicode tracks paused .recvonly (renegotiations + 1) offer = some sdps.1 ∧
        restate unicode tracks paused .sendonly (renegotiations + 1) answer = some sdps.2 := by
  unfold descriptions restate
  cases bumpSessionVersion unicode offer (renegotiations + 1) with
  | none => simp
  | some offer' =>
    cases bumpSessionVersion unicode answer (renegotiations + 1) with
    | none => simp
    | some answer' =>
      simp only [Option.bind_eq_bind, Option.bind_some]
      exact foldlM_pair paused tracks offer' answer' sdps

/-- A pass hands the engine the two descriptions that were negotiated with nothing but the versions
and the directions of the outbound tracks rewritten, in whatever order it takes the tracks, just if
it can restate both. -/
theorem descriptions_iff (unicode : Unicode) (map : TrackMap) (paused : Finset String)
    (renegotiations : ℕ) (offer answer : Description) :
    (∃ sdps, (∀ tracks, tracks.Perm map.tracks →
      descriptions unicode tracks paused renegotiations offer.text answer.text = some sdps) ∧
      Restated paused .recvonly map.tracks offer sdps.1 ∧
        Restated paused .sendonly map.tracks answer sdps.2) ↔
      Restatable map.tracks (renegotiations + 1) offer ∧
        Restatable map.tracks (renegotiations + 1) answer := by
  rw [← restate_iff unicode paused .recvonly map.nodup_mids (Nat.succ_pos renegotiations),
    ← restate_iff unicode paused .sendonly map.nodup_mids (Nat.succ_pos renegotiations)]
  constructor
  · rintro ⟨sdps, hsdps, hoffer, hanswer⟩
    exact ⟨⟨sdps.1, fun t ht => ((descriptions_eq_some_iff ..).mp (hsdps t ht)).1, hoffer⟩,
      ⟨sdps.2, fun t ht => ((descriptions_eq_some_iff ..).mp (hsdps t ht)).2, hanswer⟩⟩
  · rintro ⟨⟨offer', hoffer', hoffer⟩, ⟨answer', hanswer', hanswer⟩⟩
    refine ⟨(offer', answer'), ?_, hoffer, hanswer⟩
    intro t ht
    exact (descriptions_eq_some_iff ..).mpr ⟨hoffer' t ht, hanswer' t ht⟩

/-! ### An offer whose lines end with `\n` alone -/

instance (line : Line) : Decidable (NoBreak line) := inferInstanceAs (Decidable (_ ∧ _))

instance (line : Line) : Decidable (Typed line) := inferInstanceAs (Decidable (_ ∨ _))

/-- `o=- 1 2 IN IP4 127.0.0.1`. -/
def localOrigin : Origin where
  user := "-".toList
  id := "1".toList
  version := "2".toList
  fields := ["IN".toList, "IP4".toList, "127.0.0.1".toList]
  version_ne_nil := by decide
  version_digits := List.all_eq_true.mp (by decide)
  noSpace := by decide
  noBreak := by decide

def videoSection : List Line :=
  ["m=video 9 UDP/TLS/RTP/SAVPF 96".toList, "a=mid:0".toList, "a=recvonly".toList, []]

theorem areSections_videoSection : AreSections [videoSection] where
  isSection := by
    intro lines hlines
    rw [List.mem_singleton.mp hlines]
    exact ⟨⟨_, _, rfl, by decide, by decide⟩, by decide, by decide, by decide⟩
  distinct_mids := List.pairwise_singleton _ _

def videoDescription (lineEnd : LineEnd) : Description where
  lineEnd := lineEnd
  origin := localOrigin
  session := ["s=-".toList, "t=0 0".toList]
  sections := [videoSection]
  noBreak := by decide
  isMedia_session := by decide
  areSections := areSections_videoSection

theorem nodup_videoMid : [("0" : String)].Nodup := List.nodup_singleton _

/-- The model sends its video in the section. -/
def videoMap : TrackMap where
  tracks := [⟨"0", "video", true⟩]
  nodup_mids := nodup_videoMid

/-- The offer has no section to the program, so that the pass raises and the video goes on. -/
theorem not_descriptions : ¬ ∃ sdps, (∀ tracks, tracks.Perm videoMap.tracks →
    descriptions asciiDigits tracks {"video"} 0 (videoDescription .lf).text
      (videoDescription .crlf).text = some sdps) ∧
    Restated {"video"} .recvonly videoMap.tracks (videoDescription .lf) sdps.1 ∧
      Restated {"video"} .sendonly videoMap.tracks (videoDescription .crlf) sdps.2 := by
  rintro ⟨sdps, hsdps, -, -⟩
  have hnone : descriptions asciiDigits videoMap.tracks {"video"} 0 (videoDescription .lf).text
      (videoDescription .crlf).text = none := by decide +kernel
  rw [hsdps _ (.refl _)] at hnone
  cases hnone

end ReactorRuntime.WebRtc.SdpText
