import ReactorRuntime.WebRtc.Equiv.Bundle
import ReactorRuntime.WebRtc.Equiv.SdpText

/-!
# What is taken out of a bundle

A text whose numbers `int` reads is cleaned section by section (`deduplicate_of_readable`).  The
result comes apart into the sections that are left, with the same mids, and each of them binds what
it bound but for what it lost (`mem_bindings_leftOf_iff`): no two of them disagree, the first one
that declares a payload type keeps it, and cleaning once more changes nothing.

The m-line of a section that loses something is written again only where it has the shape that the
program expects, and then up to the last number, so that the text is clean just where every such
m-line is regular (`deduplicate_iff`).
-/

namespace ReactorRuntime.WebRtc.Bundle

open Python

section Text

variable (unicode : Unicode) (sdp : List Char)

/-- The RTX payload types that the sections of the bundle declare, in their order. -/
def winning : List (ℕ × ℕ) :=
  ((parts sdp).2.filter (isBundled (bundleMids sdp))).flatMap (bindings unicode)

/-- The payload types that a section loses: those that an earlier section of the bundle declared
with another `apt`. -/
def losing (lines : List Line) : List ℕ :=
  if isBundled (bundleMids sdp) lines then
    conflicting (winning unicode sdp) (bindings unicode lines)
  else []

def cleanedSections : List (List Line) :=
  (parts sdp).2.map fun lines => cleanSection unicode (losing unicode sdp lines) lines

def cleaned : List Char := ((parts sdp).1 ++ (cleanedSections unicode sdp).flatten).flatten

/-- A text whose numbers `int` reads, as far as the program has it read them. -/
structure Readable : Prop where
  apts : ∀ lines ∈ (parts sdp).2, isBundled (bundleMids sdp) lines = true →
    ∀ digits ∈ aptNumbers unicode lines, Short digits
  lines : ∀ lines ∈ (parts sdp).2, losing unicode sdp lines ≠ [] →
    ∀ line ∈ lines, ∀ digits ∈ lineNumbers unicode line, Short digits

end Text

variable {unicode : Unicode} {sdp : List Char}

/-! ### The text that the program makes -/

theorem startsOnce_of_mem_parts : ∀ lines ∈ (parts sdp).2, Lists.StartsOnce startsMedia lines :=
  Lists.startsOnce_of_mem_sectionsBy_snd _

theorem flatten_parts : ((parts sdp).1 ++ (parts sdp).2.flatten).flatten = sdp := by
  rw [parts, Lists.append_flatten_sectionsBy, flatten_splitLines]

theorem areLines_parts : AreLines ((parts sdp).1 ++ (parts sdp).2.flatten) := by
  rw [parts, Lists.append_flatten_sectionsBy]
  exact areLines_splitLines sdp

theorem isBundled_nil (lines : List Line) : isBundled [] lines = false := by
  unfold isBundled
  cases sectionMid lines with
  | none => rfl
  | some mid => simp

theorem losing_of_not_isBundled {lines : List Line}
    (h : ¬isBundled (bundleMids sdp) lines = true) : losing unicode sdp lines = [] :=
  if_neg h

theorem cleanSection_nil (lines : List Line) : cleanSection unicode [] lines = lines := by
  cases lines <;> rfl

/-- A text in which no section loses anything is left as it is. -/
theorem cleaned_of_losing_eq_nil (h : ∀ lines ∈ (parts sdp).2, losing unicode sdp lines = []) :
    cleaned unicode sdp = sdp := by
  have hsame : cleanedSections unicode sdp = (parts sdp).2 := by
    refine (List.map_congr_left fun lines hlines => ?_).trans (List.map_id _)
    rw [h lines hlines, cleanSection_nil]
    rfl
  rw [cleaned, hsame, flatten_parts]

theorem mapM_rtxApts (h : ∀ lines ∈ (parts sdp).2, isBundled (bundleMids sdp) lines = true →
    ∀ digits ∈ aptNumbers unicode lines, Short digits) :
    ((parts sdp).2.filter (isBundled (bundleMids sdp))).mapM (rtxApts unicode) =
      some (((parts sdp).2.filter (isBundled (bundleMids sdp))).map (bindings unicode)) := by
  refine Lists.mapM_eq_some_map fun lines hlines => ?_
  obtain ⟨hmem, hbundled⟩ := List.mem_filter.mp hlines
  exact rtxApts_of_short (h lines hmem hbundled)

theorem deduplicate_of_readable (h : Readable unicode sdp) :
    deduplicate unicode sdp = some (cleaned unicode sdp) := by
  unfold deduplicate
  by_cases hmids : bundleMids sdp = []
  · have hlosing : ∀ lines ∈ (parts sdp).2, losing unicode sdp lines = [] := by
      intro lines _
      refine losing_of_not_isBundled ?_
      rw [hmids, isBundled_nil]
      decide
    rw [if_pos hmids, cleaned_of_losing_eq_nil hlosing]
  · have hrebuilt : (parts sdp).2.mapM (fun lines =>
        if isBundled (bundleMids sdp) lines then do
          let apts ← rtxApts unicode lines
          stripPayloadTypes unicode lines (conflicting (winning unicode sdp) apts)
        else some lines) = some (cleanedSections unicode sdp) := by
      refine Lists.mapM_eq_some_map fun lines hlines => ?_
      by_cases hbundled : isBundled (bundleMids sdp) lines = true
      · have hlosing : losing unicode sdp lines =
            conflicting (winning unicode sdp) (bindings unicode lines) := if_pos hbundled
        rw [if_pos hbundled, rtxApts_of_short (h.apts lines hlines hbundled), Option.bind_eq_bind,
          Option.bind_some, ← hlosing]
        exact stripPayloadTypes_of_short (startsOnce_of_mem_parts lines hlines)
          (h.lines lines hlines)
      · rw [if_neg hbundled, losing_of_not_isBundled hbundled, cleanSection_nil]
    rw [if_neg hmids, mapM_rtxApts h.apts, Option.bind_eq_bind, Option.bind_some,
      ← List.flatMap_def]
    change ((parts sdp).2.mapM (fun lines =>
      if isBundled (bundleMids sdp) lines then do
        let apts ← rtxApts unicode lines
        stripPayloadTypes unicode lines (conflicting (winning unicode sdp) apts)
      else some lines)).bind _ = _
    rw [hrebuilt, Option.bind_some, cleaned, List.flatten_append]

theorem readable_of_deduplicate {result : List Char} (h : deduplicate unicode sdp = some result) :
    Readable unicode sdp := by
  unfold deduplicate at h
  by_cases hmids : bundleMids sdp = []
  · have hnot : ∀ lines, ¬isBundled (bundleMids sdp) lines = true := by
      intro lines
      rw [hmids, isBundled_nil]
      decide
    exact ⟨fun lines _ hbundled => (hnot lines hbundled).elim,
      fun lines _ hlosing => (hlosing (losing_of_not_isBundled (hnot lines))).elim⟩
  · rw [if_neg hmids] at h
    simp only [Option.bind_eq_bind, Option.bind_eq_some_iff] at h
    obtain ⟨apts, hapts, rebuilt, hrebuilt, -⟩ := h
    have hshort : ∀ lines ∈ (parts sdp).2, isBundled (bundleMids sdp) lines = true →
        ∀ digits ∈ aptNumbers unicode lines, Short digits := by
      intro lines hlines hbundled
      obtain ⟨a, ha⟩ := Option.isSome_iff_exists.mp
        (Lists.isSome_of_mapM_eq_some hapts lines (List.mem_filter.mpr ⟨hlines, hbundled⟩))
      exact short_of_rtxApts ha
    have hwinning : apts.flatten = winning unicode sdp := by
      rw [mapM_rtxApts hshort] at hapts
      rw [← Option.some.inj hapts]
      rfl
    refine ⟨hshort, ?_⟩
    intro lines hlines hlosing
    have hbundled : isBundled (bundleMids sdp) lines = true := by
      by_contra hnot
      exact hlosing (losing_of_not_isBundled hnot)
    obtain ⟨stripped, hstripped⟩ :=
      Option.isSome_iff_exists.mp (Lists.isSome_of_mapM_eq_some hrebuilt lines hlines)
    rw [if_pos hbundled, rtxApts_of_short (hshort lines hlines hbundled), Option.bind_some,
      hwinning] at hstripped
    have heq : losing unicode sdp lines =
        conflicting (winning unicode sdp) (bindings unicode lines) := if_pos hbundled
    rw [← heq] at hstripped
    exact short_of_stripPayloadTypes hstripped hlosing

/-! ### Reading what is left -/

theorem startsOnce_of_mem_cleanedSections :
    ∀ lines ∈ cleanedSections unicode sdp, Lists.StartsOnce startsMedia lines := by
  intro lines hlines
  obtain ⟨old, hold, rfl⟩ := List.mem_map.mp hlines
  exact startsOnce_cleanSection (startsOnce_of_mem_parts old hold)

theorem areLines_cleanedSections :
    AreLines ((parts sdp).1 ++ (cleanedSections unicode sdp).flatten) :=
  areLines_cleaned _ areLines_parts startsOnce_of_mem_parts

theorem parts_cleaned : parts (cleaned unicode sdp) = (splitLines (parts sdp).1.flatten,
    (cleanedSections unicode sdp).map fun lines => splitLines lines.flatten) :=
  sectionsBy_splitLines areLines_cleanedSections (Lists.starts_of_mem_sectionsBy_fst _)
    startsOnce_of_mem_cleanedSections

theorem filterMap_cleanSection {α : Type} {read : Line → Option α}
    (hmedia : ∀ line, startsMedia line = true → read line = none)
    (hscope : ∀ line, (read line).isSome → scopeOf unicode (strip line) = none) {bad : List ℕ}
    {lines : List Line} (hlines : Lists.StartsOnce startsMedia lines) :
    (cleanSection unicode bad lines).filterMap read = lines.filterMap read := by
  obtain ⟨media, rest, rfl, hstarts, -⟩ := id hlines
  obtain ⟨first, others, heq, hfirst, -⟩ := @startsOnce_cleanSection unicode bad _ hlines
  rw [cleanSection_cons] at heq ⊢
  obtain ⟨rfl, -⟩ := List.cons.inj heq
  rw [List.filterMap_cons_none (hmedia _ hfirst), List.filterMap_cons_none (hmedia media hstarts),
    filterMap_filter_of (q := fun _ => true)]
  · exact List.filter_true _
  · intro line _ a ha
    rw [keeps, hscope line (by rw [ha]; rfl)]
    rfl

theorem areLines_of_mem_parts {lines : List Line} (h : lines ∈ (parts sdp).2) : AreLines lines :=
  areLines_parts.sublist
    ((List.sublist_flatten_of_mem h).trans (List.sublist_append_right _ _))

theorem areLines_cleanSection_of_mem {lines : List Line} (h : lines ∈ (parts sdp).2)
    (bad : List ℕ) : AreLines (cleanSection unicode bad lines) := by
  have hlines : AreLines ([] ++ (lines ++ [])) := by
    rw [List.nil_append, List.append_nil]
    exact areLines_of_mem_parts h
  have hclean := @areLines_cleanSection unicode bad _ _ _ (startsOnce_of_mem_parts lines h) hlines
  rwa [List.nil_append, List.append_nil] at hclean

def leftOf (unicode : Unicode) (sdp : List Char) (lines : List Line) : List Line :=
  splitLines (cleanSection unicode (losing unicode sdp lines) lines).flatten

theorem parts_cleaned_snd :
    (parts (cleaned unicode sdp)).2 = (parts sdp).2.map (leftOf unicode sdp) := by
  rw [parts_cleaned, cleanedSections, List.map_map]
  rfl

theorem sectionMid_leftOf {lines : List Line} (h : lines ∈ (parts sdp).2) :
    sectionMid (leftOf unicode sdp lines) = sectionMid lines := by
  rw [leftOf, sectionMid_splitLines (areLines_cleanSection_of_mem h _), sectionMid_eq_head?,
    sectionMid_eq_head?, filterMap_cleanSection _ _ (startsOnce_of_mem_parts lines h)]
  · exact fun line hline => midOf_of_startsMedia hline
  · intro line hline
    obtain ⟨mid, hmid⟩ := Option.isSome_iff_exists.mp hline
    exact scopeOf_of_midOf hmid

theorem bundleMids_eq_head? (sdp : List Char) : bundleMids sdp =
    ((splitLines sdp).filterMap fun line => groupOf (content line)).head?.getD [] := by
  rw [List.head?_filterMap]
  rfl

theorem bundleMids_cleaned : bundleMids (cleaned unicode sdp) = bundleMids sdp := by
  have hread : IgnoresEnd fun line => groupOf (content line) := ignoresEnd_content rfl
  have hsections : ((cleanedSections unicode sdp).map
      (List.filterMap fun line => groupOf (content line))) =
      (parts sdp).2.map (List.filterMap fun line => groupOf (content line)) := by
    rw [cleanedSections, List.map_map]
    refine List.map_congr_left fun lines hlines => ?_
    refine filterMap_cleanSection (fun line hline => groupOf_of_startsMedia hline) ?_
      (startsOnce_of_mem_parts lines hlines)
    intro line hline
    obtain ⟨mids, hmids⟩ := Option.isSome_iff_exists.mp hline
    exact scopeOf_of_groupOf hmids
  have hold := (@areLines_parts sdp).filterMap_splitLines hread
  rw [flatten_parts] at hold
  rw [bundleMids_eq_head?, bundleMids_eq_head?, hold, cleaned,
    areLines_cleanedSections.filterMap_splitLines hread, List.filterMap_append,
    List.filterMap_append, List.filterMap_flatten, List.filterMap_flatten, hsections]

theorem isBundled_leftOf {lines : List Line} (h : lines ∈ (parts sdp).2) :
    isBundled (bundleMids (cleaned unicode sdp)) (leftOf unicode sdp lines) =
      isBundled (bundleMids sdp) lines := by
  unfold isBundled
  rw [bundleMids_cleaned, sectionMid_leftOf h]

theorem bindings_cons_of_startsMedia {media : Line} (h : startsMedia media = true)
    (rest : List Line) : bindings unicode (media :: rest) = bindings unicode rest := by
  have hrtx : (media :: rest).filterMap (fun line => rtxOf unicode (strip line)) =
      rest.filterMap fun line => rtxOf unicode (strip line) :=
    List.filterMap_cons_none (rtxOf_of_startsMedia h)
  have hapt : (media :: rest).filterMap (fun line => aptOf unicode (strip line)) =
      rest.filterMap fun line => aptOf unicode (strip line) :=
    List.filterMap_cons_none (aptOf_of_startsMedia h)
  rw [bindings, bindings, rtxTypes, rtxTypes, aptPairs, aptPairs, hrtx, hapt]

theorem mem_bindings_cleanSection_iff {lines : List Line}
    (hlines : Lists.StartsOnce startsMedia lines) {bad : List ℕ} {payloadType apt : ℕ} :
    (payloadType, apt) ∈ bindings unicode (cleanSection unicode bad lines) ↔
      (payloadType, apt) ∈ bindings unicode lines ∧ payloadType ∉ bad := by
  obtain ⟨media, rest, rfl, hstarts, -⟩ := id hlines
  obtain ⟨first, others, heq, hfirst, -⟩ := @startsOnce_cleanSection unicode bad _ hlines
  rw [cleanSection_cons] at heq ⊢
  obtain ⟨rfl, -⟩ := List.cons.inj heq
  rw [bindings_cons_of_startsMedia hfirst, bindings_cons_of_startsMedia hstarts]
  exact mem_bindings_filter_keeps_iff

theorem mem_bindings_leftOf_iff {lines : List Line} (h : lines ∈ (parts sdp).2)
    {payloadType apt : ℕ} : (payloadType, apt) ∈ bindings unicode (leftOf unicode sdp lines) ↔
      (payloadType, apt) ∈ bindings unicode lines ∧ payloadType ∉ losing unicode sdp lines := by
  rw [leftOf, bindings_splitLines (areLines_cleanSection_of_mem h _)]
  exact mem_bindings_cleanSection_iff (startsOnce_of_mem_parts lines h)

theorem mem_conflicting_iff {winning apts : List (ℕ × ℕ)} {payloadType : ℕ} :
    payloadType ∈ conflicting winning apts ↔
      ∃ apt, (payloadType, apt) ∈ apts ∧ winning.lookup payloadType ≠ some apt := by
  unfold conflicting
  rw [List.mem_map]
  constructor
  · rintro ⟨⟨p, apt⟩, hpair, rfl⟩
    obtain ⟨hmem, hne⟩ := List.mem_filter.mp hpair
    exact ⟨apt, hmem, of_decide_eq_true hne⟩
  · rintro ⟨apt, hmem, hne⟩
    exact ⟨(payloadType, apt), List.mem_filter.mpr ⟨hmem, decide_eq_true hne⟩, rfl⟩

theorem lookup_winning_of_mem {lines : List Line} (h : lines ∈ (parts sdp).2)
    (hbundled : isBundled (bundleMids sdp) lines = true) {payloadType apt : ℕ}
    (hmem : (payloadType, apt) ∈ bindings unicode (leftOf unicode sdp lines)) :
    (winning unicode sdp).lookup payloadType = some apt := by
  obtain ⟨hmem, hnot⟩ := (mem_bindings_leftOf_iff h).mp hmem
  have hlosing : losing unicode sdp lines =
      conflicting (winning unicode sdp) (bindings unicode lines) := if_pos hbundled
  by_contra hne
  rw [hlosing] at hnot
  exact hnot (mem_conflicting_iff.mpr ⟨apt, hmem, hne⟩)

theorem lookup_append {l l' : List (ℕ × ℕ)} {k : ℕ} :
    (l ++ l').lookup k = (l.lookup k).or (l'.lookup k) := by
  induction l with
  | nil => rfl
  | cons pair l ih =>
    rw [List.cons_append, Lists.Dict.lookup_cons_if, Lists.Dict.lookup_cons_if, ih]
    split_ifs <;> rfl

theorem exists_lookup_of_mem {l : List (ℕ × ℕ)} {k v : ℕ} (h : (k, v) ∈ l) :
    ∃ w, l.lookup k = some w := by
  induction l with
  | nil => cases h
  | cons pair l ih =>
    rw [Lists.Dict.lookup_cons_if]
    split_ifs with hk
    · exact ⟨pair.2, rfl⟩
    · rcases List.mem_cons.mp h with rfl | h
      · exact (hk rfl).elim
      · exact ih h

theorem notMem_losing_of_first {before after : List (List Line)} {lines : List Line}
    (hparts : (parts sdp).2 = before ++ lines :: after) {payloadType apt : ℕ}
    (hmem : (payloadType, apt) ∈ bindings unicode lines)
    (hfirst : ∀ earlier ∈ before, isBundled (bundleMids sdp) earlier = true →
      ∀ a, (payloadType, a) ∉ bindings unicode earlier) :
    payloadType ∉ losing unicode sdp lines := by
  intro hlosing
  by_cases hbundled : isBundled (bundleMids sdp) lines = true
  · rw [losing, if_pos hbundled] at hlosing
    obtain ⟨a, ha, hne⟩ := mem_conflicting_iff.mp hlosing
    have hbefore : ((before.filter (isBundled (bundleMids sdp))).flatMap
        (bindings unicode)).lookup payloadType = none := by
      cases hlookup : ((before.filter (isBundled (bundleMids sdp))).flatMap
          (bindings unicode)).lookup payloadType with
      | none => rfl
      | some v =>
        obtain ⟨earlier, hearlier, hv⟩ := List.mem_flatMap.mp (mem_of_lookup hlookup)
        obtain ⟨hin, hbundled'⟩ := List.mem_filter.mp hearlier
        exact (hfirst earlier hin hbundled' v hv).elim
    obtain ⟨w, hw⟩ := exists_lookup_of_mem hmem
    have hwin : (winning unicode sdp).lookup payloadType = some w := by
      rw [winning, hparts, List.filter_append, List.flatMap_append, lookup_append, hbefore,
        Option.none_or, List.filter_cons_of_pos hbundled, List.flatMap_cons, lookup_append, hw]
      rfl
    rw [hwin] at hne
    exact hne (congrArg some (eq_of_mem_bindings (mem_of_lookup hw) ha))
  · rw [losing_of_not_isBundled hbundled] at hlosing
    cases hlosing

/-- Cleaning leaves no conflict. -/
theorem losing_cleaned {lines : List Line} (h : lines ∈ (parts (cleaned unicode sdp)).2) :
    losing unicode (cleaned unicode sdp) lines = [] := by
  by_cases hbundled : isBundled (bundleMids (cleaned unicode sdp)) lines = true
  · rw [losing, if_pos hbundled, List.eq_nil_iff_forall_not_mem]
    intro payloadType hmem
    obtain ⟨apt, hapt, hne⟩ := mem_conflicting_iff.mp hmem
    have hall : ∀ {a}, (payloadType, a) ∈ winning unicode (cleaned unicode sdp) →
        (winning unicode sdp).lookup payloadType = some a := by
      intro a ha
      obtain ⟨section', hsection, ha⟩ := List.mem_flatMap.mp ha
      obtain ⟨hin, hbundled'⟩ := List.mem_filter.mp hsection
      rw [parts_cleaned_snd] at hin
      obtain ⟨old, hold, rfl⟩ := List.mem_map.mp hin
      rw [isBundled_leftOf hold] at hbundled'
      exact lookup_winning_of_mem hold hbundled' ha
    have hself : (payloadType, apt) ∈ winning unicode (cleaned unicode sdp) :=
      List.mem_flatMap.mpr ⟨lines, List.mem_filter.mpr ⟨h, hbundled⟩, hapt⟩
    obtain ⟨w, hw⟩ := exists_lookup_of_mem hself
    have hsame : some w = some apt := (hall (mem_of_lookup hw)).symm.trans (hall hself)
    exact hne (hw.trans hsame)
  · exact losing_of_not_isBundled hbundled

theorem mem_aptNumbers_iff {lines : List Line} {digits : List Char} :
    digits ∈ aptNumbers unicode lines ↔ ∃ line ∈ lines, rtxOf unicode (strip line) = some digits ∨
      ∃ pair, aptOf unicode (strip line) = some pair ∧ (digits = pair.1 ∨ digits = pair.2) := by
  simp only [aptNumbers, List.mem_append, List.mem_filterMap, List.mem_flatMap, List.mem_cons,
    List.not_mem_nil, or_false]
  constructor
  · rintro (⟨line, hline, hrtx⟩ | ⟨pair, ⟨line, hline, hapt⟩, hdigits⟩)
    · exact ⟨line, hline, .inl hrtx⟩
    · exact ⟨line, hline, .inr ⟨pair, hapt, hdigits⟩⟩
  · rintro ⟨line, hline, hrtx | ⟨pair, hapt, hdigits⟩⟩
    · exact .inl ⟨line, hline, hrtx⟩
    · exact .inr ⟨pair, ⟨line, hline, hapt⟩, hdigits⟩

theorem mem_aptNumbers_of_cleanSection {lines : List Line}
    (hlines : Lists.StartsOnce startsMedia lines) {bad : List ℕ} {digits : List Char}
    (h : digits ∈ aptNumbers unicode (cleanSection unicode bad lines)) :
    digits ∈ aptNumbers unicode lines := by
  obtain ⟨media, rest, rfl, -, -⟩ := id hlines
  obtain ⟨first, others, heq, hfirst, -⟩ := @startsOnce_cleanSection unicode bad _ hlines
  rw [cleanSection_cons] at heq h
  obtain ⟨rfl, -⟩ := List.cons.inj heq
  obtain ⟨line, hline, hdigits⟩ := mem_aptNumbers_iff.mp h
  rcases List.mem_cons.mp hline with rfl | hline
  · rw [rtxOf_of_startsMedia hfirst, aptOf_of_startsMedia hfirst] at hdigits
    obtain hrtx | ⟨pair, hapt, -⟩ := hdigits
    · cases hrtx
    · cases hapt
  · exact mem_aptNumbers_iff.mpr
      ⟨line, List.mem_cons_of_mem _ (List.mem_of_mem_filter hline), hdigits⟩

theorem deduplicate_cleaned (h : Readable unicode sdp) :
    deduplicate unicode (cleaned unicode sdp) = some (cleaned unicode sdp) := by
  have hreadable : Readable unicode (cleaned unicode sdp) := by
    refine ⟨?_, fun lines hlines hlosing => (hlosing (losing_cleaned hlines)).elim⟩
    intro lines hlines hbundled digits hdigits
    rw [parts_cleaned_snd] at hlines
    obtain ⟨old, hold, rfl⟩ := List.mem_map.mp hlines
    rw [isBundled_leftOf hold] at hbundled
    rw [leftOf, aptNumbers_splitLines (areLines_cleanSection_of_mem hold _)] at hdigits
    exact h.apts old hold hbundled digits
      (mem_aptNumbers_of_cleanSection (startsOnce_of_mem_parts old hold) hdigits)
  rw [deduplicate_of_readable hreadable, cleaned_of_losing_eq_nil fun lines => losing_cleaned]

/-! ### What the program is for -/

section Spec

variable (unicode)

/-- The payload type that a format of an m-line is, if it is a number. -/
def formatType (format : List Char) : Option ℕ :=
  if format.all unicode.isDecimal then some (unicode.value format) else none

def keepsFormat (bad : List ℕ) (format : List Char) : Bool :=
  (formatType unicode format).all (· ∉ bad)

/-- A section as the program is to leave it: the payload types that it loses are gone from the
formats of its m-line, the lines that are scoped to one of them are gone, and all else is there byte
for byte, the m-line too if there are none. -/
def CleanedSection (sdp : List Char) (lines lines' : List Line) : Prop :=
  ∃ media rest media', lines = media :: rest ∧
    lines'.flatten = media' ++ (rest.filter (keeps unicode (losing unicode sdp lines))).flatten ∧
    words media' = (words media).take 3 ++
      ((words media).drop 3).filter (keepsFormat unicode (losing unicode sdp lines)) ∧
    (losing unicode sdp lines = [] → media' = media)

/-- A text as the program is to leave it. -/
structure Clean (sdp result : List Char) : Prop where
  bundle : bundleMids result = bundleMids sdp
  session : (parts result).1.flatten = (parts sdp).1.flatten
  sections : List.Forall₂ (CleanedSection unicode sdp) (parts sdp).2 (parts result).2
  /-- No two sections of the bundle bind a payload type in two ways. -/
  no_collision : ∀ lines ∈ (parts result).2, ∀ lines' ∈ (parts result).2,
    isBundled (bundleMids result) lines = true → isBundled (bundleMids result) lines' = true →
      ∀ payloadType apt apt', (payloadType, apt) ∈ bindings unicode lines →
        (payloadType, apt') ∈ bindings unicode lines' → apt = apt'
  /-- The first section of the bundle that declares a payload type keeps it. -/
  first_keeps : ∀ before lines after, (parts sdp).2 = before ++ lines :: after →
    isBundled (bundleMids sdp) lines = true →
      ∀ payloadType apt, (payloadType, apt) ∈ bindings unicode lines →
        (∀ earlier ∈ before, isBundled (bundleMids sdp) earlier = true →
          ∀ a, (payloadType, a) ∉ bindings unicode earlier) →
        ∀ lines', (parts result).2[before.length]? = some lines' →
          (payloadType, apt) ∈ bindings unicode lines'
  idempotent : deduplicate unicode result = some result

/-- An m-line that comes to what it is to: it has the shape that the program expects, with numbers
alone for formats, or none of its formats is to go. -/
def Regular (bad : List ℕ) (media : Line) : Prop :=
  if (mediaOf unicode (strip media)).isSome then
    ∀ format ∈ (words media).drop 3, format.all unicode.isDecimal = true
  else ∀ format ∈ (words media).drop 3, keepsFormat unicode bad format = true

/-- What a text has to be for the program to clean it. -/
structure Deduplicable (sdp : List Char) : Prop where
  readable : Readable unicode sdp
  regular : ∀ lines ∈ (parts sdp).2, losing unicode sdp lines ≠ [] →
    ∀ media ∈ lines.head?, Regular unicode (losing unicode sdp lines) media

end Spec

theorem words_cleanMedia_iff (bad : List ℕ) (media : Line) :
    words (cleanMedia unicode bad media) =
      (words media).take 3 ++ ((words media).drop 3).filter (keepsFormat unicode bad) ↔
        Regular unicode bad media := by
  unfold Regular
  cases hmedia : mediaOf unicode (strip media) with
  | none =>
    have hsame : cleanMedia unicode bad media = media := by rw [cleanMedia, hmedia]
    rw [hsame, Option.isSome_none, if_neg (by decide), ← List.filter_eq_self]
    constructor
    · intro h
      conv_lhs at h => rw [← List.take_append_drop 3 (words media)]
      exact (List.append_cancel_left h).symm
    · intro h
      rw [h, List.take_append_drop]
  | some pair =>
    obtain ⟨first, port, proto, formats, hwords, -, -, hclean⟩ := cleanMedia_of_mediaOf hmedia bad
    rw [hclean, hwords, Option.isSome_some, if_pos rfl]
    change [first, port, proto] ++ _ = [first, port, proto] ++ formats.filter _ ↔
      ∀ format ∈ formats, _
    rw [List.append_cancel_left_eq]
    have hkeeps : ∀ format, format.all unicode.isDecimal = true →
        keepsFormat unicode bad format = decide (unicode.value format ∉ bad) := by
      intro format hformat
      rw [keepsFormat, formatType, if_pos hformat]
      rfl
    constructor
    · intro h format hformat
      by_contra hnot
      -- what is no number is kept, but the program drops it
      have hkept : format ∈ formats.filter (keepsFormat unicode bad) := by
        refine List.mem_filter.mpr ⟨hformat, ?_⟩
        rw [keepsFormat, formatType, if_neg hnot]
        rfl
      rw [← h] at hkept
      have hformats : ∀ word ∈ formats, IsWord word := fun word hword =>
        @isWord_of_mem_words media word (by
          rw [hwords]
          exact List.mem_cons_of_mem _ (List.mem_cons_of_mem _ (List.mem_cons_of_mem _ hword)))
      have hdecimal :=
        (@isWord_of_mem_numbersOf unicode _ hformats format (List.mem_of_mem_filter hkept)).2
      exact hnot (List.all_eq_true.mpr hdecimal)
    · intro h
      rw [numbersOf_of_forall h]
      exact List.filter_congr fun format hformat => (hkeeps format (h format hformat)).symm

theorem leftOf_flatten {media : Line} {rest : List Line} :
    (leftOf unicode sdp (media :: rest)).flatten =
      cleanFirst unicode (losing unicode sdp (media :: rest)) media ++
        (rest.filter (keeps unicode (losing unicode sdp (media :: rest)))).flatten := by
  rw [leftOf, flatten_splitLines, cleanSection_cons, List.flatten_cons]

theorem cleanedSection_leftOf_iff {lines : List Line} (h : lines ∈ (parts sdp).2) :
    CleanedSection unicode sdp lines (leftOf unicode sdp lines) ↔
      (losing unicode sdp lines ≠ [] →
        ∀ media ∈ lines.head?, Regular unicode (losing unicode sdp lines) media) := by
  obtain ⟨media, rest, rfl, -, -⟩ := startsOnce_of_mem_parts lines h
  constructor
  · rintro ⟨media', rest', media'', heq, hflatten, hwords, -⟩ hlosing line hline
    obtain ⟨rfl, rfl⟩ := List.cons.inj heq
    cases hline
    rw [leftOf_flatten] at hflatten
    rw [← List.append_cancel_right hflatten, cleanFirst, if_neg hlosing] at hwords
    exact (words_cleanMedia_iff _ _).mp hwords
  · intro hregular
    refine ⟨media, rest, cleanFirst unicode (losing unicode sdp (media :: rest)) media, rfl,
      leftOf_flatten, ?_, fun hlosing => if_pos hlosing⟩
    unfold cleanFirst
    split_ifs with hlosing
    · have hall : ((words media).drop 3).filter (keepsFormat unicode []) =
          (words media).drop 3 := by
        refine List.filter_eq_self.mpr fun format _ => ?_
        unfold keepsFormat
        cases formatType unicode format <;> simp
      rw [hlosing, hall, List.take_append_drop]
    · exact (words_cleanMedia_iff _ _).mpr (hregular hlosing media rfl)

/-- A readable text whose m-lines are regular is clean when the program is done with it. -/
theorem clean_cleaned (h : Deduplicable unicode sdp) :
    Clean unicode sdp (cleaned unicode sdp) where
  bundle := bundleMids_cleaned
  session := by rw [parts_cleaned, flatten_splitLines]
  sections := by
    rw [parts_cleaned_snd, List.forall₂_map_right_iff, List.forall₂_same]
    exact fun lines hlines => (cleanedSection_leftOf_iff hlines).mpr (h.regular lines hlines)
  no_collision := by
    intro lines hlines lines' hlines' hbundled hbundled' payloadType apt apt' hapt hapt'
    rw [parts_cleaned_snd] at hlines hlines'
    obtain ⟨old, hold, rfl⟩ := List.mem_map.mp hlines
    obtain ⟨old', hold', rfl⟩ := List.mem_map.mp hlines'
    rw [isBundled_leftOf hold] at hbundled
    rw [isBundled_leftOf hold'] at hbundled'
    have hwon := lookup_winning_of_mem hold hbundled hapt
    rw [lookup_winning_of_mem hold' hbundled' hapt'] at hwon
    exact (Option.some.inj hwon).symm
  first_keeps := by
    intro before lines after hparts _ payloadType apt hmem hfirst lines' hlines'
    have hin : lines ∈ (parts sdp).2 := by
      rw [hparts]
      exact List.mem_append_right _ List.mem_cons_self
    have hleft : lines' = leftOf unicode sdp lines := by
      rw [parts_cleaned_snd, hparts, List.map_append, List.map_cons,
        List.getElem?_append_right (by simp), List.length_map, Nat.sub_self] at hlines'
      exact (Option.some.inj hlines').symm
    rw [hleft]
    exact (mem_bindings_leftOf_iff hin).mpr ⟨hmem, notMem_losing_of_first hparts hmem hfirst⟩
  idempotent := deduplicate_cleaned h.readable

/-- The program takes the collisions out of a bundle and leaves everything else as it was, just if
the numbers that it reads are short enough and each m-line that loses a payload type has the shape
it expects, or lists none of those it loses. -/
theorem deduplicate_iff (unicode : Unicode) (sdp : List Char) :
    (∃ result, deduplicate unicode sdp = some result ∧ Clean unicode sdp result) ↔
      Deduplicable unicode sdp := by
  constructor
  · rintro ⟨result, hresult, hclean⟩
    have hreadable := readable_of_deduplicate hresult
    rw [deduplicate_of_readable hreadable] at hresult
    cases hresult
    have hsections := hclean.sections
    rw [parts_cleaned_snd, List.forall₂_map_right_iff, List.forall₂_same] at hsections
    exact ⟨hreadable, fun lines hlines =>
      (cleanedSection_leftOf_iff hlines).mp (hsections lines hlines)⟩
  · intro h
    exact ⟨cleaned unicode sdp, deduplicate_of_readable h.readable, clean_cleaned h⟩

/-! ### An m-line with a number of ports -/

/-- Two sections bind payload type 97, and the port of the second one has a number of ports. -/
def portsText : List Char :=
  ["v=0", "a=group:BUNDLE 0 1",
    "m=audio 9 UDP/TLS/RTP/SAVPF 96 97", "a=mid:0", "a=rtpmap:97 rtx/90000", "a=fmtp:97 apt=96",
    "m=video 9/2 UDP/TLS/RTP/SAVPF 97 98", "a=mid:1", "a=rtpmap:97 rtx/90000",
    "a=fmtp:97 apt=98"].flatMap fun line => line.toList ++ ['\n']

def portsSection : List Line :=
  ["m=video 9/2 UDP/TLS/RTP/SAVPF 97 98\n".toList, "a=mid:1\n".toList,
    "a=rtpmap:97 rtx/90000\n".toList, "a=fmtp:97 apt=98\n".toList]

/-- The lines of payload type 97 go, and the m-line still lists it. -/
theorem not_deduplicate : ¬∃ result, deduplicate asciiDigits portsText = some result ∧
    Clean asciiDigits portsText result := by
  rintro ⟨result, hresult, hclean⟩
  rw [deduplicate_of_readable (readable_of_deduplicate hresult)] at hresult
  cases hresult
  have hsections := hclean.sections
  rw [parts_cleaned_snd, List.forall₂_map_right_iff, List.forall₂_same] at hsections
  have hmem : portsSection ∈ (parts portsText).2 := by decide +kernel
  have hlosing : losing asciiDigits portsText portsSection = [97] := by decide +kernel
  have hregular := (cleanedSection_leftOf_iff hmem).mp (hsections _ hmem)
  rw [hlosing] at hregular
  have hmedia := hregular (by decide) _ rfl
  have hshape : (mediaOf asciiDigits
      (strip "m=video 9/2 UDP/TLS/RTP/SAVPF 97 98\n".toList)).isSome = false := by decide +kernel
  rw [Regular, hshape, if_neg (by decide)] at hmedia
  have hkept := hmedia "97".toList (by decide +kernel)
  exact absurd hkept (by decide +kernel)

end ReactorRuntime.WebRtc.Bundle
