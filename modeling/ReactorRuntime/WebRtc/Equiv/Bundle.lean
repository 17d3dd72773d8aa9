import ReactorRuntime.Lists.Dict
import ReactorRuntime.Python.Equiv.Text
import ReactorRuntime.WebRtc.Bundle

/-!
# The sections of a bundle

What the regular expressions of `deduplicate_bundle_pts` read of a line they read of a line with
another end, and no m-line says what a line of a payload type says.  So the payload types that a
section binds are those of its lines after the first (`bindings`), a section that lost some binds
the others (`mem_bindings_filter_keeps_iff`), and the sections that are left, put together, come
apart into the same sections (`sectionsBy_splitLines`).
-/

namespace ReactorRuntime.WebRtc.Bundle

open Python

variable {unicode : Unicode}

/-! ### What a line starts with -/

theorem eq_append_of_dropPrefix? {text start rest : List Char}
    (h : text.dropPrefix? start = some rest) : text = start ++ rest := by
  obtain ⟨start', rfl, hstart⟩ := List.dropPrefix?_eq_some_iff.mp h
  rw [beq_iff_eq.mp hstart]

theorem dropPrefix?_append (start rest : List Char) :
    (start ++ rest).dropPrefix? start = some rest :=
  List.dropPrefix?_eq_some_iff.mpr ⟨start, rfl, BEq.rfl⟩

theorem false_of_prefixes {start start' text : List Char} (h : start <+: text)
    (h' : start' <+: text) (hnot : start.isPrefixOf start' = false)
    (hnot' : start'.isPrefixOf start = false) : False := by
  rcases List.prefix_or_prefix_of_prefix h h' with hpre | hpre
  · rw [List.isPrefixOf_iff_prefix.mpr hpre] at hnot
    cases hnot
  · rw [List.isPrefixOf_iff_prefix.mpr hpre] at hnot'
    cases hnot'

theorem startsMedia_eq (line : Line) : startsMedia line = SdpText.isMedia (strip line) := by
  rw [Bool.eq_iff_iff]
  constructor
  · intro h
    obtain ⟨rest, hrest⟩ := List.isPrefixOf_iff_prefix.mp h
    refine List.isPrefixOf_iff_prefix.mpr ?_
    have hstart := @prefix_strip_append ['m', '='] (by decide) (isSpace_of_all (by decide)) rest
    have hstrip : strip (lstrip line) = strip line := by
      rw [strip, strip, lstrip, lstrip, List.dropWhile_idempotent]
    rwa [hrest, hstrip] at hstart
  · intro h
    exact List.isPrefixOf_iff_prefix.mpr
      ((List.isPrefixOf_iff_prefix.mp h).trans (List.rdropWhile_prefix _ _))

theorem prefix_of_startsMedia {line : Line} (h : startsMedia line = true) :
    ['m', '='] <+: strip line := by
  rw [startsMedia_eq] at h
  exact List.isPrefixOf_iff_prefix.mp h

theorem prefix_of_dropPrefix? {text start rest : List Char}
    (h : text.dropPrefix? start = some rest) : start <+: text := by
  rw [eq_append_of_dropPrefix? h]
  exact List.prefix_append _ _

theorem prefix_of_midOf {text mid : List Char} (h : midOf text = some mid) :
    "a=mid:".toList <+: text := by
  unfold midOf at h
  cases hrest : text.dropPrefix? "a=mid:".toList with
  | none =>
    rw [hrest] at h
    cases h
  | some rest => exact prefix_of_dropPrefix? hrest

theorem prefix_of_groupOf {line : Line} {mids : List (List Char)} (h : groupOf line = some mids) :
    "a=group:BUNDLE".toList <+: line := by
  unfold groupOf at h
  cases hrest : line.dropPrefix? "a=group:BUNDLE".toList with
  | none =>
    rw [hrest] at h
    cases h
  | some rest => exact prefix_of_dropPrefix? hrest

theorem prefix_of_aptOf {text : List Char} {pair : List Char × List Char}
    (h : aptOf unicode text = some pair) : "a=fmtp:".toList <+: text := by
  unfold aptOf at h
  cases hrest : text.dropPrefix? "a=fmtp:".toList with
  | none =>
    rw [hrest] at h
    cases h
  | some rest => exact prefix_of_dropPrefix? hrest

theorem prefix_of_scopeBy {text attr digits : List Char}
    (h : scopeBy unicode text attr = some digits) : "a=".toList ++ attr ++ [':'] <+: text := by
  unfold scopeBy at h
  cases hrest : text.dropPrefix? ("a=".toList ++ attr ++ [':']) with
  | none =>
    rw [hrest] at h
    cases h
  | some rest => exact prefix_of_dropPrefix? hrest

/-- A line that starts in another way is scoped to no payload type. -/
theorem scopeOf_eq_none {text start : List Char} (h : start <+: text)
    (hnot : ∀ attr ∈ attributes, start.isPrefixOf ("a=".toList ++ attr ++ [':']) = false ∧
      ("a=".toList ++ attr ++ [':']).isPrefixOf start = false) : scopeOf unicode text = none := by
  cases hscope : scopeOf unicode text with
  | none => rfl
  | some digits =>
    obtain ⟨attr, hattr, hsome⟩ := List.exists_of_findSome?_eq_some hscope
    exact (false_of_prefixes h (prefix_of_scopeBy hsome) (hnot attr hattr).1
      (hnot attr hattr).2).elim

theorem scopeOf_of_midOf {text mid : List Char} (h : midOf text = some mid) :
    scopeOf unicode text = none :=
  scopeOf_eq_none (prefix_of_midOf h) (by decide)

theorem scopeOf_of_startsMedia {line : Line} (h : startsMedia line = true) :
    scopeOf unicode (strip line) = none :=
  scopeOf_eq_none (prefix_of_startsMedia h) (by decide)

theorem scopeOf_of_groupOf {line : Line} {mids : List (List Char)}
    (h : groupOf (content line) = some mids) : scopeOf unicode (strip line) = none := by
  obtain ⟨rest, hrest⟩ := (prefix_of_groupOf h).trans (List.takeWhile_prefix _)
  refine @scopeOf_eq_none _ _ "a=group:BUNDLE".toList ?_ (by decide)
  rw [← hrest]
  exact prefix_strip_append (by decide) (isSpace_of_all (by decide)) rest

/-! ### What an m-line does not say -/

theorem midOf_of_startsMedia {line : Line} (h : startsMedia line = true) :
    midOf (strip line) = none := by
  cases hmid : midOf (strip line) with
  | none => rfl
  | some mid =>
    exact (false_of_prefixes (prefix_of_startsMedia h) (prefix_of_midOf hmid) (by decide)
      (by decide)).elim

theorem aptOf_of_startsMedia {line : Line} (h : startsMedia line = true) :
    aptOf unicode (strip line) = none := by
  cases hapt : aptOf unicode (strip line) with
  | none => rfl
  | some pair =>
    exact (false_of_prefixes (prefix_of_startsMedia h) (prefix_of_aptOf hapt) (by decide)
      (by decide)).elim

theorem groupOf_of_startsMedia {line : Line} (h : startsMedia line = true) :
    groupOf (content line) = none := by
  cases hgroup : groupOf (content line) with
  | none => rfl
  | some mids =>
    obtain ⟨rest, hrest⟩ := (prefix_of_groupOf hgroup).trans (List.takeWhile_prefix _)
    have hstart :=
      @prefix_strip_append "a=group:BUNDLE".toList (by decide) (isSpace_of_all (by decide)) rest
    rw [hrest] at hstart
    exact (false_of_prefixes (prefix_of_startsMedia h) hstart (by decide) (by decide)).elim

theorem rtxOf_of_startsMedia {line : Line} (h : startsMedia line = true) :
    rtxOf unicode (strip line) = none := by
  obtain ⟨rest, hrest⟩ := prefix_of_startsMedia h
  rw [← hrest, rtxOf, dropPrefixIgnoreCase?, if_neg]
  · rfl
  · intro heq
    exact absurd (congrArg List.head? heq) (by simp)

/-! ### Payload types -/

theorem digits?_eq_some {text digits rest : List Char}
    (h : digits? unicode text = some (digits, rest)) :
    digits ≠ [] ∧ digits = text.takeWhile unicode.isDecimal ∧
      rest = text.dropWhile unicode.isDecimal := by
  unfold digits? at h
  simp only at h
  split_ifs at h with hnil
  obtain ⟨rfl, rfl⟩ := Prod.mk.inj (Option.some.inj h)
  exact ⟨hnil, rfl, rfl⟩

/-- The `apt` of a payload type is a line that is scoped to it. -/
theorem scopeOf_of_aptOf {text : List Char} {pair : List Char × List Char}
    (h : aptOf unicode text = some pair) : scopeOf unicode text = some pair.1 := by
  have hrtpmap : scopeBy unicode text "rtpmap".toList = none := by
    cases hscope : scopeBy unicode text "rtpmap".toList with
    | none => rfl
    | some digits =>
      exact (false_of_prefixes (prefix_of_aptOf h) (prefix_of_scopeBy hscope) (by decide)
        (by decide)).elim
  have hfmtp : scopeBy unicode text "fmtp".toList = some pair.1 := by
    simp only [aptOf, Option.bind_eq_bind, Option.bind_eq_some_iff, Prod.exists] at h
    obtain ⟨rest, hrest, payloadType, rest', hdigits, rest'', hspaces, -, -, apt, -, -, heq⟩ := h
    have hword : rest'.head?.any unicode.isWord = false := by
      unfold dropSpaces? at hspaces
      split_ifs at hspaces with hspace
      rw [Option.any_eq_true] at hspace
      obtain ⟨c, hc, hc'⟩ := hspace
      rw [hc, Option.any_some, unicode.isWord_of_isSpace c hc']
    have hstart : text.dropPrefix? ("a=".toList ++ "fmtp".toList ++ [':']) = some rest := hrest
    rw [scopeBy, hstart]
    simp only [Option.bind_eq_bind, Option.bind_some, hdigits, hword]
    rw [← Option.some.inj heq]
    rfl
  rw [scopeOf, attributes, List.findSome?_cons, hrtpmap, List.findSome?_cons, hfmtp]

/-- A line that declares RTX is scoped to no other payload type. -/
theorem eq_of_rtxOf_of_scopeOf {text digits digits' : List Char}
    (h : rtxOf unicode text = some digits) (h' : scopeOf unicode text = some digits') :
    digits = digits' := by
  simp only [rtxOf, Option.bind_eq_bind, Option.bind_eq_some_iff, Prod.exists] at h
  obtain ⟨rest, hrest, payloadType, rest', hdigits, -, -, -, -, heq⟩ := h
  cases heq
  unfold dropPrefixIgnoreCase? at hrest
  split_ifs at hrest with hlower
  cases hrest
  obtain ⟨attr, hattr, hscope⟩ := List.exists_of_findSome?_eq_some h'
  obtain ⟨tail, htail⟩ := prefix_of_scopeBy hscope
  simp only [attributes, List.mem_cons, List.not_mem_nil, or_false] at hattr
  rcases hattr with rfl | rfl | rfl
  · have hstart : text.dropPrefix? ("a=".toList ++ "rtpmap".toList ++ [':']) =
        some (text.drop "a=rtpmap:".toList.length) := by
      rw [← htail, dropPrefix?_append]
      rfl
    simp only [scopeBy, hstart, Option.bind_eq_bind, Option.bind_some, hdigits] at hscope
    split_ifs at hscope
    exact Option.some.inj hscope
  · rw [← htail] at hlower
    exact absurd hlower (by simp)
  · rw [← htail] at hlower
    exact absurd hlower (by simp)

theorem isDecimal_of_digits? {text digits rest : List Char}
    (h : digits? unicode text = some (digits, rest)) :
    ∀ c ∈ digits, unicode.isDecimal c = true := by
  intro c hc
  rw [(digits?_eq_some h).2.1] at hc
  exact List.mem_takeWhile_imp hc

theorem isDecimal_of_rtxOf {text digits : List Char} (h : rtxOf unicode text = some digits) :
    ∀ c ∈ digits, unicode.isDecimal c = true := by
  simp only [rtxOf, Option.bind_eq_bind, Option.bind_eq_some_iff, Prod.exists] at h
  obtain ⟨_, _, payloadType, _, hdigits, _, _, _, _, heq⟩ := h
  cases heq
  exact isDecimal_of_digits? hdigits

theorem isDecimal_of_aptOf {text : List Char} {pair : List Char × List Char}
    (h : aptOf unicode text = some pair) :
    (∀ c ∈ pair.1, unicode.isDecimal c = true) ∧ ∀ c ∈ pair.2, unicode.isDecimal c = true := by
  simp only [aptOf, Option.bind_eq_bind, Option.bind_eq_some_iff, Prod.exists] at h
  obtain ⟨_, _, payloadType, _, hdigits, _, _, _, _, apt, _, hapt, heq⟩ := h
  cases heq
  exact ⟨isDecimal_of_digits? hdigits, isDecimal_of_digits? hapt⟩

theorem isDecimal_of_scopeOf {text digits : List Char} (h : scopeOf unicode text = some digits) :
    ∀ c ∈ digits, unicode.isDecimal c = true := by
  obtain ⟨attr, -, hscope⟩ := List.exists_of_findSome?_eq_some h
  simp only [scopeBy, Option.bind_eq_bind, Option.bind_eq_some_iff, Prod.exists] at hscope
  obtain ⟨_, _, payloadType, rest, hdigits, heq⟩ := hscope
  split_ifs at heq
  cases heq
  exact isDecimal_of_digits? hdigits

/-! ### What a section binds -/

section Bindings

variable (unicode)

/-- A number that `int` reads. -/
def Short (digits : List Char) : Prop := digits.length ≤ Json.maxDigits

/-- The payload types that a section declares as RTX. -/
def rtxTypes (lines : List Line) : List ℕ :=
  (lines.filterMap fun line => rtxOf unicode (strip line)).map unicode.value

/-- The payload types of a section that have an `apt`, with it. -/
def aptPairs (lines : List Line) : List (ℕ × ℕ) :=
  (lines.filterMap fun line => aptOf unicode (strip line)).map fun pair =>
    (unicode.value pair.1, unicode.value pair.2)

/-- The RTX payload types of a section, each with the `apt` it is bound to. -/
def bindings (lines : List Line) : List (ℕ × ℕ) :=
  (rtxTypes unicode lines).eraseDups.filterMap fun payloadType =>
    ((aptPairs unicode lines).reverse.lookup payloadType).map (payloadType, ·)

/-- The numbers that a section is read with. -/
def aptNumbers (lines : List Line) : List (List Char) :=
  (lines.filterMap fun line => rtxOf unicode (strip line)) ++
    (lines.filterMap fun line => aptOf unicode (strip line)).flatMap fun pair => [pair.1, pair.2]

end Bindings

theorem readNat_of_short {digits : List Char} (h : ∀ c ∈ digits, unicode.isDecimal c = true)
    (hshort : Short digits) : readNat unicode digits = some (unicode.value digits) := by
  rw [readNat_eq unicode h]
  exact if_pos hshort

theorem short_of_readNat {digits : List Char} {n : ℕ} (h : readNat unicode digits = some n) :
    Short digits := by
  unfold readNat at h
  split_ifs at h with hshort
  exact hshort

theorem isDecimal_of_mem_rtx {lines : List Line} {digits : List Char}
    (h : digits ∈ lines.filterMap fun line => rtxOf unicode (strip line)) :
    ∀ c ∈ digits, unicode.isDecimal c = true := by
  obtain ⟨line, -, hline⟩ := List.mem_filterMap.mp h
  exact isDecimal_of_rtxOf hline

theorem isDecimal_of_mem_apt {lines : List Line} {pair : List Char × List Char}
    (h : pair ∈ lines.filterMap fun line => aptOf unicode (strip line)) :
    (∀ c ∈ pair.1, unicode.isDecimal c = true) ∧ ∀ c ∈ pair.2, unicode.isDecimal c = true := by
  obtain ⟨line, -, hline⟩ := List.mem_filterMap.mp h
  exact isDecimal_of_aptOf hline

theorem rtxApts_of_short {lines : List Line}
    (h : ∀ digits ∈ aptNumbers unicode lines, Short digits) :
    rtxApts unicode lines = some (bindings unicode lines) := by
  have hrtx : (lines.filterMap fun line => rtxOf unicode (strip line)).mapM (readNat unicode) =
      some (rtxTypes unicode lines) := by
    refine Lists.mapM_eq_some_map fun digits hdigits => ?_
    exact readNat_of_short (isDecimal_of_mem_rtx hdigits)
      (h digits (List.mem_append_left _ hdigits))
  have hapt : (lines.filterMap fun line => aptOf unicode (strip line)).mapM (fun pair => do
      let payloadType ← readNat unicode pair.1
      let apt ← readNat unicode pair.2
      some (payloadType, apt)) = some (aptPairs unicode lines) := by
    refine Lists.mapM_eq_some_map fun pair hpair => ?_
    have hnumbers : ∀ digits, digits = pair.1 ∨ digits = pair.2 → Short digits := by
      intro digits hdigits
      refine h digits (List.mem_append_right _ (List.mem_flatMap.mpr ⟨pair, hpair, ?_⟩))
      rcases hdigits with rfl | rfl
      · exact List.mem_cons_self
      · exact List.mem_cons_of_mem _ List.mem_cons_self
    obtain ⟨hfirst, hsecond⟩ := isDecimal_of_mem_apt hpair
    rw [readNat_of_short hfirst (hnumbers _ (.inl rfl)),
      readNat_of_short hsecond (hnumbers _ (.inr rfl))]
    rfl
  rw [rtxApts, hrtx, Option.bind_eq_bind, Option.bind_some, hapt]
  rfl

theorem short_of_rtxApts {lines : List Line} {apts : List (ℕ × ℕ)}
    (h : rtxApts unicode lines = some apts) :
    ∀ digits ∈ aptNumbers unicode lines, Short digits := by
  simp only [rtxApts, Option.bind_eq_bind, Option.bind_eq_some_iff] at h
  obtain ⟨payloadTypes, hrtx, pairs, hapt, -⟩ := h
  intro digits hdigits
  rcases List.mem_append.mp hdigits with hdigits | hdigits
  · obtain ⟨n, hn⟩ := Option.isSome_iff_exists.mp (Lists.isSome_of_mapM_eq_some hrtx digits hdigits)
    exact short_of_readNat hn
  · obtain ⟨pair, hpair, hmem⟩ := List.mem_flatMap.mp hdigits
    obtain ⟨numbers, hnumbers⟩ :=
      Option.isSome_iff_exists.mp (Lists.isSome_of_mapM_eq_some hapt pair hpair)
    simp only [Option.bind_eq_some_iff] at hnumbers
    obtain ⟨m, hm, n, hn, -⟩ := hnumbers
    simp only [List.mem_cons, List.not_mem_nil, or_false] at hmem
    rcases hmem with rfl | rfl
    · exact short_of_readNat hm
    · exact short_of_readNat hn

theorem mem_bindings_iff {lines : List Line} {payloadType apt : ℕ} :
    (payloadType, apt) ∈ bindings unicode lines ↔ payloadType ∈ rtxTypes unicode lines ∧
      (aptPairs unicode lines).reverse.lookup payloadType = some apt := by
  unfold bindings
  rw [List.mem_filterMap]
  constructor
  · rintro ⟨p, hp, hpair⟩
    obtain ⟨a, ha, heq⟩ := Option.map_eq_some_iff.mp hpair
    obtain ⟨rfl, rfl⟩ := Prod.mk.inj heq
    exact ⟨List.mem_eraseDups.mp hp, ha⟩
  · rintro ⟨hmem, hlookup⟩
    exact ⟨payloadType, List.mem_eraseDups.mpr hmem, by rw [hlookup]; rfl⟩

theorem eq_of_mem_bindings {lines : List Line} {payloadType apt apt' : ℕ}
    (h : (payloadType, apt) ∈ bindings unicode lines)
    (h' : (payloadType, apt') ∈ bindings unicode lines) : apt = apt' := by
  rw [mem_bindings_iff] at h h'
  exact Option.some.inj (h.2.symm.trans h'.2)

/-! ### The lines that are kept -/

theorem filterMap_filter_of {α β : Type*} {p : α → Bool} {q : β → Bool} {f : α → Option β}
    {l : List α} (h : ∀ a ∈ l, ∀ b, f a = some b → p a = q b) :
    (l.filter p).filterMap f = (l.filterMap f).filter q := by
  induction l with
  | nil => rfl
  | cons a l ih =>
    have hrest := ih fun b hb => h b (List.mem_cons_of_mem _ hb)
    cases hfa : f a with
    | none =>
      rw [List.filterMap_cons_none hfa, ← hrest, List.filter_cons]
      split_ifs
      · exact List.filterMap_cons_none hfa
      · rfl
    | some b =>
      rw [List.filterMap_cons_some hfa, List.filter_cons, List.filter_cons,
        h a List.mem_cons_self b hfa, ← hrest]
      split_ifs
      · exact List.filterMap_cons_some hfa
      · rfl

/-- Whether a line is scoped to none of some payload types. -/
def keeps (unicode : Unicode) (bad : List ℕ) (line : Line) : Bool :=
  (scopeOf unicode (strip line)).all fun digits => unicode.value digits ∉ bad

theorem keeps_nil (line : Line) : keeps unicode [] line = true := by
  unfold keeps
  cases scopeOf unicode (strip line) with
  | none => rfl
  | some digits => simp

theorem aptPairs_filter_keeps (bad : List ℕ) (lines : List Line) :
    aptPairs unicode (lines.filter (keeps unicode bad)) =
      (aptPairs unicode lines).filter fun pair => pair.1 ∉ bad := by
  unfold aptPairs
  rw [List.filter_map, filterMap_filter_of]
  intro line _ pair hpair
  rw [keeps, scopeOf_of_aptOf hpair]
  rfl

theorem mem_rtxTypes_iff {lines : List Line} {payloadType : ℕ} :
    payloadType ∈ rtxTypes unicode lines ↔ ∃ line ∈ lines, ∃ digits,
      rtxOf unicode (strip line) = some digits ∧ unicode.value digits = payloadType := by
  unfold rtxTypes
  rw [List.mem_map]
  constructor
  · rintro ⟨digits, hdigits, heq⟩
    obtain ⟨line, hline, hrtx⟩ := List.mem_filterMap.mp hdigits
    exact ⟨line, hline, digits, hrtx, heq⟩
  · rintro ⟨line, hline, digits, hrtx, heq⟩
    exact ⟨digits, List.mem_filterMap.mpr ⟨line, hline, hrtx⟩, heq⟩

theorem lookup_filter_fst {l : List (ℕ × ℕ)} {bad : List ℕ} {k : ℕ} (h : k ∉ bad) :
    (l.filter fun pair => pair.1 ∉ bad).lookup k = l.lookup k := by
  induction l with
  | nil => rfl
  | cons pair l ih =>
    rw [Lists.Dict.lookup_cons_if, List.filter_cons]
    split_ifs with hbad hk hk
    · rw [Lists.Dict.lookup_cons_if, if_pos hk]
    · rw [Lists.Dict.lookup_cons_if, if_neg hk, ih]
    · rw [decide_eq_true_eq, not_not, ← hk] at hbad
      exact absurd hbad h
    · exact ih

theorem mem_of_lookup {l : List (ℕ × ℕ)} {k v : ℕ} (h : l.lookup k = some v) : (k, v) ∈ l := by
  induction l with
  | nil => cases h
  | cons pair l ih =>
    rw [Lists.Dict.lookup_cons_if] at h
    split_ifs at h with hk
    · cases h
      rw [hk]
      exact List.mem_cons_self
    · exact List.mem_cons_of_mem _ (ih h)

/-- The lines that are kept bind what the section bound, but for what was taken out. -/
theorem mem_bindings_filter_keeps_iff {bad : List ℕ} {lines : List Line} {payloadType apt : ℕ} :
    (payloadType, apt) ∈ bindings unicode (lines.filter (keeps unicode bad)) ↔
      (payloadType, apt) ∈ bindings unicode lines ∧ payloadType ∉ bad := by
  rw [mem_bindings_iff, mem_bindings_iff, aptPairs_filter_keeps, ← List.filter_reverse]
  constructor
  · rintro ⟨hmem, hlookup⟩
    have hnot : payloadType ∉ bad := by
      have hpair := (List.mem_filter.mp (mem_of_lookup hlookup)).2
      exact of_decide_eq_true hpair
    rw [lookup_filter_fst hnot] at hlookup
    obtain ⟨line, hline, digits, hrtx, heq⟩ := mem_rtxTypes_iff.mp hmem
    exact ⟨⟨mem_rtxTypes_iff.mpr ⟨line, List.mem_of_mem_filter hline, digits, hrtx, heq⟩, hlookup⟩,
      hnot⟩
  · rintro ⟨⟨hmem, hlookup⟩, hnot⟩
    obtain ⟨line, hline, digits, hrtx, heq⟩ := mem_rtxTypes_iff.mp hmem
    refine ⟨mem_rtxTypes_iff.mpr ⟨line, List.mem_filter.mpr ⟨hline, ?_⟩, digits, hrtx, heq⟩, ?_⟩
    · -- a line that declares RTX is scoped to that payload type, if to any
      unfold keeps
      cases hscope : scopeOf unicode (strip line) with
      | none => rfl
      | some digits' =>
        rw [Option.all_some, ← eq_of_rtxOf_of_scopeOf hrtx hscope, heq]
        exact decide_eq_true hnot
    · rw [lookup_filter_fst hnot]
      exact hlookup

/-! ### The words of an m-line -/

theorem firstWords_nil (n : ℕ) : firstWords n [] = [] := by
  induction n with
  | zero => rfl
  | succ n ih =>
    rw [firstWords]
    exact ih

theorem isSpace_of_mem_head?_firstWords {text : List Char}
    (h : ∀ c ∈ text.head?, isSpace c = true) (n : ℕ) :
    ∀ c ∈ (firstWords n text).head?, isSpace c = true := by
  cases n with
  | zero => exact fun c hc => by cases hc
  | succ n =>
    cases text with
    | nil => rw [firstWords_nil]; exact h
    | cons c text =>
      have hc := h c rfl
      rw [firstWords, List.takeWhile_cons_of_pos hc]
      exact h

theorem mem_of_mem_firstWords {n : ℕ} {text : List Char} {c : Char} (h : c ∈ firstWords n text) :
    c ∈ text := by
  induction n generalizing text with
  | zero => cases h
  | succ n ih =>
    rw [firstWords] at h
    rcases List.mem_append.mp h with h | h
    · exact (List.takeWhile_prefix _).subset h
    have hlstrip : c ∈ lstrip text := by
      rcases List.mem_append.mp h with h | h
      · exact (List.takeWhile_prefix _).subset h
      · exact (List.dropWhile_sublist _).subset (ih h)
    exact (List.dropWhile_sublist _).subset hlstrip

theorem words_firstWords (n : ℕ) (text : List Char) :
    words (firstWords n text) = (words text).take n := by
  induction n generalizing text with
  | zero => exact words_nil
  | succ n ih =>
    rw [firstWords, words_append_left fun c hc => List.mem_takeWhile_imp hc]
    by_cases hnil : lstrip text = []
    · rw [hnil, ← words_lstrip text, hnil, words_nil, List.take_nil]
      exact (congrArg words (firstWords_nil n)).trans words_nil
    · rw [(isWord_takeWhile hnil).words_append
        (isSpace_of_mem_head?_firstWords (isSpace_of_mem_head?_dropWhile _) n), ih,
        words_eq_cons hnil, List.take_succ_cons]

theorem startsMedia_of_words {line : Line} {word : List Char} {rest : List (List Char)}
    (h : words line = word :: rest) (hword : SdpText.isMedia word = true) :
    startsMedia line = true := by
  have hne : lstrip line ≠ [] := by
    intro hnil
    rw [← words_lstrip, hnil, words_nil] at h
    cases h
  rw [words_eq_cons hne] at h
  obtain ⟨rfl, -⟩ := List.cons.inj h
  exact List.isPrefixOf_iff_prefix.mpr
    ((List.isPrefixOf_iff_prefix.mp hword).trans (List.takeWhile_prefix _))

theorem isWord_of_mem_numbersOf {formats : List (List Char)} (h : ∀ word ∈ formats, IsWord word) :
    ∀ number ∈ numbersOf unicode formats,
      IsWord number ∧ ∀ c ∈ number, unicode.isDecimal c = true := by
  induction formats with
  | nil => exact fun number hnumber => (List.not_mem_nil hnumber).elim
  | cons word formats ih =>
    intro number hnumber
    have hword := h word List.mem_cons_self
    rw [numbersOf] at hnumber
    split_ifs at hnumber with hall
    · rcases List.mem_cons.mp hnumber with rfl | hnumber
      · exact ⟨hword, List.all_eq_true.mp hall⟩
      · exact ih (fun w hw => h w (List.mem_cons_of_mem _ hw)) number hnumber
    · cases hdigits : digits? unicode word with
      | none =>
        rw [hdigits] at hnumber
        cases hnumber
      | some pair =>
        obtain ⟨digits, rest⟩ := pair
        rw [hdigits] at hnumber
        obtain rfl := List.mem_singleton.mp hnumber
        refine ⟨⟨(digits?_eq_some hdigits).1, fun c hc => ?_⟩, isDecimal_of_digits? hdigits⟩
        rw [(digits?_eq_some hdigits).2.1] at hc
        exact hword.2 c ((List.takeWhile_prefix _).subset hc)

theorem numbersOf_of_forall {formats : List (List Char)}
    (h : ∀ word ∈ formats, word.all unicode.isDecimal = true) :
    numbersOf unicode formats = formats := by
  induction formats with
  | nil => rfl
  | cons word formats ih =>
    rw [numbersOf, if_pos (h word List.mem_cons_self),
      ih fun w hw => h w (List.mem_cons_of_mem _ hw)]

/-- The shape of the m-line that the program expects. -/
theorem mediaOf_eq_some {text media : List Char} {numbers : List (List Char)}
    (h : mediaOf unicode text = some (media, numbers)) :
    ∃ first port proto formats, words text = first :: port :: proto :: formats ∧
      SdpText.isMedia first = true ∧ media = firstWords 3 text ∧
        numbers = numbersOf unicode formats := by
  unfold mediaOf at h
  cases hwords : words text with
  | nil => rw [hwords] at h; cases h
  | cons first rest =>
    cases rest with
    | nil => rw [hwords] at h; cases h
    | cons port rest =>
      cases rest with
      | nil => rw [hwords] at h; cases h
      | cons proto formats =>
        rw [hwords] at h
        simp only at h
        split_ifs at h with hshape
        obtain ⟨rfl, rfl⟩ := Prod.mk.inj (Option.some.inj h)
        exact ⟨first, port, proto, formats, rfl, hshape.1, rfl, rfl⟩

theorem startsMedia_of_mediaOf {line : Line} {pair : List Char × List (List Char)}
    (h : mediaOf unicode (strip line) = some pair) : startsMedia line = true := by
  obtain ⟨first, port, proto, formats, hwords, hfirst, -⟩ := mediaOf_eq_some h
  rw [words_strip] at hwords
  exact startsMedia_of_words hwords hfirst

theorem isSpace_of_mem_eolOf (line : Line) : ∀ c ∈ eolOf line, isSpace c = true := by
  unfold eolOf
  split_ifs
  · exact List.all_eq_true.mp (by decide)
  · exact List.all_eq_true.mp (by decide)

theorem words_mediaLine {media : List Char} {kept : List (List Char)}
    (hkept : ∀ word ∈ kept, IsWord word) (line : Line) :
    words (mediaLine media kept (eolOf line)) = words media ++ kept := by
  rw [mediaLine, words_append_of_forall _ (isSpace_of_mem_eolOf line)]
  split_ifs with hnil
  · rw [hnil, List.intercalate_nil, List.append_nil, List.append_nil, List.append_nil]
  · rw [List.append_assoc, List.singleton_append, words_append_space (by decide),
      words_intercalate hkept]

/-! ### What is left of a section -/

section Cleaned

variable (unicode) (bad : List ℕ)

/-- An m-line with some payload types taken out. -/
def cleanMedia (line : Line) : Line :=
  match mediaOf unicode (strip line) with
  | some (media, formats) =>
    mediaLine media (formats.filter fun format => unicode.value format ∉ bad) (eolOf line)
  | none => line

/-- A section with some payload types taken out. -/
def cleanSection : List Line → List Line
  | [] => []
  | media :: rest =>
    if bad = [] then media :: rest
    else cleanMedia unicode bad media :: rest.filter (keeps unicode bad)

/-- A line with some payload types taken out, or nothing. -/
def cleanLine (line : Line) : Option Line :=
  if (mediaOf unicode (strip line)).isSome then some (cleanMedia unicode bad line)
  else if keeps unicode bad line then some line else none

def lineNumbers (line : Line) : List (List Char) :=
  match mediaOf unicode (strip line) with
  | some (_, formats) => formats
  | none => (scopeOf unicode (strip line)).toList

end Cleaned

section Strip

variable {bad : List ℕ} {line : Line}

theorem isDecimal_of_mem_lineNumbers :
    ∀ digits ∈ lineNumbers unicode line, ∀ c ∈ digits, unicode.isDecimal c = true := by
  intro digits hdigits
  unfold lineNumbers at hdigits
  cases hmedia : mediaOf unicode (strip line) with
  | none =>
    rw [hmedia] at hdigits
    exact isDecimal_of_scopeOf (Option.mem_toList.mp hdigits)
  | some pair =>
    obtain ⟨media, numbers⟩ := pair
    obtain ⟨first, port, proto, formats, hwords, -, -, rfl⟩ := mediaOf_eq_some hmedia
    rw [hmedia] at hdigits
    have hword : ∀ word ∈ formats, IsWord word := fun word hword =>
      @isWord_of_mem_words (strip line) word (by
        rw [hwords]
        exact List.mem_cons_of_mem _ (List.mem_cons_of_mem _ (List.mem_cons_of_mem _ hword)))
    exact (isWord_of_mem_numbersOf hword digits hdigits).2

theorem keepUnless_of_short {α : Type} {digits : List Char}
    (h : ∀ c ∈ digits, unicode.isDecimal c = true) (hshort : Short digits) (a : α) :
    keepUnless unicode bad digits a =
      some (if unicode.value digits ∈ bad then none else some a) := by
  rw [keepUnless, readNat_of_short h hshort]
  rfl

theorem reduceOption_map_ite {l : List (List Char)} :
    (l.map fun digits => if unicode.value digits ∈ bad then none else some digits).reduceOption =
      l.filter fun digits => unicode.value digits ∉ bad := by
  induction l with
  | nil => rfl
  | cons digits l ih =>
    rw [List.map_cons, List.filter_cons]
    by_cases hmem : unicode.value digits ∈ bad
    · rw [if_pos hmem, List.reduceOption_cons_of_none, ih, if_neg (by simpa using hmem)]
    · rw [if_neg hmem, List.reduceOption_cons_of_some, ih, if_pos (by simpa using hmem)]

theorem stripLine_of_short (h : ∀ digits ∈ lineNumbers unicode line, Short digits) :
    stripLine unicode bad line = some (cleanLine unicode bad line) := by
  have hdecimal := @isDecimal_of_mem_lineNumbers unicode line
  unfold stripLine cleanLine cleanMedia
  unfold lineNumbers at h hdecimal
  cases hmedia : mediaOf unicode (strip line) with
  | none =>
    rw [hmedia] at h hdecimal
    unfold keeps
    cases hscope : scopeOf unicode (strip line) with
    | none => rfl
    | some digits =>
      rw [hscope] at h hdecimal
      simp only [Option.isSome_none, Option.all_some]
      rw [keepUnless_of_short (hdecimal digits List.mem_cons_self) (h digits List.mem_cons_self)]
      by_cases hmem : unicode.value digits ∈ bad
      · simp [hmem]
      · simp [hmem]
  | some pair =>
    obtain ⟨media, formats⟩ := pair
    rw [hmedia] at h hdecimal
    have hkept : formats.mapM (fun format => keepUnless unicode bad format format) =
        some (formats.map fun format =>
          if unicode.value format ∈ bad then none else some format) :=
      Lists.mapM_eq_some_map fun format hformat =>
        keepUnless_of_short (hdecimal format hformat) (h format hformat) format
    simp only [hkept, Option.bind_eq_bind, Option.bind_some, reduceOption_map_ite]
    rfl

theorem short_of_keepUnless {α : Type} {digits : List Char} {a : α} {kept : Option α}
    (h : keepUnless unicode bad digits a = some kept) : Short digits := by
  simp only [keepUnless, Option.bind_eq_bind, Option.bind_eq_some_iff] at h
  obtain ⟨n, hn, -⟩ := h
  exact short_of_readNat hn

theorem short_of_stripLine {kept : Option Line} (h : stripLine unicode bad line = some kept) :
    ∀ digits ∈ lineNumbers unicode line, Short digits := by
  intro digits hdigits
  unfold stripLine at h
  unfold lineNumbers at hdigits
  cases hmedia : mediaOf unicode (strip line) with
  | none =>
    rw [hmedia] at h hdigits
    cases hscope : scopeOf unicode (strip line) with
    | none =>
      rw [hscope] at hdigits
      cases hdigits
    | some digits' =>
      rw [hscope] at h hdigits
      obtain rfl := List.mem_singleton.mp hdigits
      exact short_of_keepUnless h
  | some pair =>
    obtain ⟨media, formats⟩ := pair
    rw [hmedia] at h hdigits
    simp only [Option.bind_eq_bind, Option.bind_eq_some_iff] at h
    obtain ⟨numbers, hnumbers, -⟩ := h
    obtain ⟨n, hn⟩ := Option.isSome_iff_exists.mp (Lists.isSome_of_mapM_eq_some hnumbers digits hdigits)
    exact short_of_keepUnless hn

theorem mediaOf_eq_none (h : startsMedia line = false) : mediaOf unicode (strip line) = none := by
  cases hmedia : mediaOf unicode (strip line) with
  | none => rfl
  | some pair =>
    rw [startsMedia_of_mediaOf hmedia] at h
    cases h

theorem stripPayloadTypes_of_short {lines : List Line} (hlines : Lists.StartsOnce startsMedia lines)
    (h : bad ≠ [] → ∀ line ∈ lines, ∀ digits ∈ lineNumbers unicode line, Short digits) :
    stripPayloadTypes unicode lines bad = some (cleanSection unicode bad lines) := by
  obtain ⟨media, rest, rfl, hmedia, hrest⟩ := hlines
  rw [stripPayloadTypes, cleanSection]
  by_cases hbad : bad = []
  · rw [if_pos hbad, if_pos hbad]
  · have hclean : (media :: rest).mapM (stripLine unicode bad) =
        some ((media :: rest).map (cleanLine unicode bad)) :=
      Lists.mapM_eq_some_map fun line hline => stripLine_of_short (h hbad line hline)
    have hfirst : cleanLine unicode bad media = some (cleanMedia unicode bad media) := by
      unfold cleanLine
      split_ifs with hshape hkeeps
      · rfl
      · rw [cleanMedia, Option.not_isSome_iff_eq_none.mp hshape]
      · rw [keeps, scopeOf_of_startsMedia hmedia] at hkeeps
        exact (hkeeps rfl).elim
    have hothers : (rest.map (cleanLine unicode bad)).reduceOption =
        rest.filter (keeps unicode bad) := by
      rw [List.reduceOption, List.filterMap_map, ← List.filterMap_eq_filter]
      refine List.filterMap_congr fun line hline => ?_
      rw [Function.comp_apply, cleanLine, mediaOf_eq_none (hrest line hline)]
      rfl
    rw [if_neg hbad, if_neg hbad, hclean, Option.map_some, List.map_cons, hfirst,
      List.reduceOption_cons_of_some, hothers]

theorem short_of_stripPayloadTypes {lines lines' : List Line}
    (h : stripPayloadTypes unicode lines bad = some lines') (hbad : bad ≠ []) :
    ∀ line ∈ lines, ∀ digits ∈ lineNumbers unicode line, Short digits := by
  intro line hline
  rw [stripPayloadTypes, if_neg hbad] at h
  obtain ⟨kept, hkept, -⟩ := Option.map_eq_some_iff.mp h
  obtain ⟨k, hk⟩ := Option.isSome_iff_exists.mp (Lists.isSome_of_mapM_eq_some hkept line hline)
  exact short_of_stripLine hk

end Strip

/-! ### Reading the result -/

section Read

variable {lines : List Line}

theorem bindings_splitLines (h : AreLines lines) :
    bindings unicode (splitLines lines.flatten) = bindings unicode lines := by
  unfold bindings rtxTypes aptPairs
  rw [h.filterMap_splitLines (ignoresEnd_strip rfl), h.filterMap_splitLines (ignoresEnd_strip rfl)]

theorem aptNumbers_splitLines (h : AreLines lines) :
    aptNumbers unicode (splitLines lines.flatten) = aptNumbers unicode lines := by
  unfold aptNumbers
  rw [h.filterMap_splitLines (ignoresEnd_strip rfl), h.filterMap_splitLines (ignoresEnd_strip rfl)]

theorem sectionMid_eq_head? (lines : List Line) :
    sectionMid lines = (lines.filterMap fun line => midOf (strip line)).head? :=
  List.head?_filterMap.symm

theorem sectionMid_splitLines (h : AreLines lines) :
    sectionMid (splitLines lines.flatten) = sectionMid lines := by
  rw [sectionMid_eq_head?, sectionMid_eq_head?, h.filterMap_splitLines (ignoresEnd_strip rfl)]

def mediaMark (line : Line) : Option Unit := if startsMedia line then some () else none

theorem ignoresEnd_mediaMark : IgnoresEnd mediaMark := by
  refine ⟨rfl, ?_⟩
  intro line
  rw [mediaMark, mediaMark, startsMedia_eq, startsMedia_eq, List.append_cons,
    strip_concat (by decide)]

theorem filterMap_mediaMark_eq_nil_iff :
    lines.filterMap mediaMark = [] ↔ ∀ line ∈ lines, startsMedia line = false := by
  rw [List.filterMap_eq_nil_iff]
  refine forall₂_congr fun line _ => ?_
  unfold mediaMark
  cases startsMedia line <;> simp

theorem startsMedia_splitLines (h : AreLines lines)
    (hno : ∀ line ∈ lines, startsMedia line = false) :
    ∀ line ∈ splitLines lines.flatten, startsMedia line = false := by
  rw [← filterMap_mediaMark_eq_nil_iff, h.filterMap_splitLines ignoresEnd_mediaMark]
  exact filterMap_mediaMark_eq_nil_iff.mpr hno

/-- A section that is put together and comes apart again is one. -/
theorem startsOnce_splitLines (h : AreLines lines) (hstarts : Lists.StartsOnce startsMedia lines) :
    Lists.StartsOnce startsMedia (splitLines lines.flatten) := by
  obtain ⟨media, rest, rfl, hmedia, hrest⟩ := hstarts
  have hread := h.filterMap_splitLines ignoresEnd_mediaMark
  have hmark : mediaMark media = some () := if_pos hmedia
  rw [List.filterMap_cons_some hmark, filterMap_mediaMark_eq_nil_iff.mpr hrest] at hread
  have hsplit : ∃ first others, splitLines (media :: rest).flatten = first :: others ∧
      startsMedia first = true := by
    cases rest with
    | nil =>
      rw [List.flatten_cons, List.flatten_nil, List.append_nil,
        (h.isLine media List.mem_cons_self).splitLines_eq]
      exact ⟨media, [], rfl, hmedia⟩
    | cons next rest =>
      have hended := (List.pairwise_cons.mp h.ended).1 next List.mem_cons_self
      obtain hsplit | ⟨body, rest', rfl, -, hsplit⟩ :=
        (h.isLine media List.mem_cons_self).splitLines_append hended (next :: rest).flatten
      · exact ⟨media, _, hsplit, hmedia⟩
      · refine ⟨_, _, hsplit, ?_⟩
        rw [startsMedia_eq, List.append_cons, strip_concat (by decide), ← startsMedia_eq]
        exact hmedia
  obtain ⟨first, others, hfirst, hstart⟩ := hsplit
  refine ⟨first, others, hfirst, hstart, ?_⟩
  have hmark' : mediaMark first = some () := if_pos hstart
  rw [hfirst, List.filterMap_cons_some hmark'] at hread
  exact filterMap_mediaMark_eq_nil_iff.mp (List.cons.inj hread).2

theorem head?_ne_of_startsMedia {line : Line} (hline : IsLine line)
    (h : startsMedia line = true) : line.head? ≠ some '\n' := by
  intro hhead
  rw [hline.eq_of_head? hhead] at h
  exact absurd h (by decide)

/-- Sections that are put together come apart again. -/
theorem splitLines_flatten_append {head : List Line} {sections : List (List Line)}
    (h : AreLines (head ++ sections.flatten))
    (hstarts : ∀ s ∈ sections, Lists.StartsOnce startsMedia s) :
    splitLines (head ++ sections.flatten).flatten =
      splitLines head.flatten ++ (sections.map fun s => splitLines s.flatten).flatten := by
  induction sections generalizing head with
  | nil => simp
  | cons s sections ih =>
    have hrest := ih (h.sublist (by
      rw [List.flatten_cons]
      exact List.sublist_append_right _ _)) fun t ht => hstarts t (List.mem_cons_of_mem _ ht)
    obtain ⟨media, rest, rfl, hmedia, -⟩ := hstarts s List.mem_cons_self
    have hline : IsLine media := h.isLine media (by simp)
    -- every line before the section ends
    have hended : Ended head.flatten := by
      refine ended_flatten fun line hline => ?_
      exact (List.pairwise_append.mp h.ended).2.2 line hline media (by simp)
    have hhead : ((media :: rest) ++ sections.flatten).flatten.head? ≠ some '\n' := by
      rw [List.cons_append, List.flatten_cons, List.head?_append_of_ne_nil _ hline.1]
      exact head?_ne_of_startsMedia hline hmedia
    rw [List.flatten_append, List.flatten_cons,
      Python.splitLines_append hended fun hand => hhead hand.2, hrest, List.map_cons, List.flatten_cons, List.flatten_cons]

theorem sectionsBy_splitLines {head : List Line} {sections : List (List Line)}
    (h : AreLines (head ++ sections.flatten)) (hhead : ∀ line ∈ head, startsMedia line = false)
    (hstarts : ∀ s ∈ sections, Lists.StartsOnce startsMedia s) :
    Lists.sectionsBy startsMedia (splitLines (head ++ sections.flatten).flatten) =
      (splitLines head.flatten, sections.map fun s => splitLines s.flatten) := by
  rw [splitLines_flatten_append h hstarts, Lists.sectionsBy_append_flatten]
  · exact startsMedia_splitLines (h.sublist (List.sublist_append_left _ _)) hhead
  · intro t ht
    obtain ⟨s, hs, rfl⟩ := List.mem_map.mp ht
    refine startsOnce_splitLines (h.sublist ?_) (hstarts s hs)
    exact (List.sublist_flatten_of_mem hs).trans (List.sublist_append_right _ _)

end Read

/-! ### The lines of the result -/

section Result

variable {bad : List ℕ}

/-- What an m-line of the expected shape becomes. -/
theorem cleanMedia_of_mediaOf {line : Line} {pair : List Char × List (List Char)}
    (h : mediaOf unicode (strip line) = some pair) (bad : List ℕ) :
    ∃ first port proto formats, words line = first :: port :: proto :: formats ∧
      SdpText.isMedia first = true ∧
      cleanMedia unicode bad line = mediaLine (firstWords 3 (strip line))
        ((numbersOf unicode formats).filter fun number => unicode.value number ∉ bad)
        (eolOf line) ∧
      words (cleanMedia unicode bad line) = [first, port, proto] ++
        (numbersOf unicode formats).filter fun number => unicode.value number ∉ bad := by
  obtain ⟨media, numbers⟩ := pair
  obtain ⟨first, port, proto, formats, hwords, hfirst, rfl, rfl⟩ := mediaOf_eq_some h
  have hclean : cleanMedia unicode bad line = mediaLine (firstWords 3 (strip line))
      ((numbersOf unicode formats).filter fun number => unicode.value number ∉ bad)
      (eolOf line) := by
    rw [cleanMedia, h]
  have hformats : ∀ word ∈ formats, IsWord word := fun word hword =>
    @isWord_of_mem_words (strip line) word (by
      rw [hwords]
      exact List.mem_cons_of_mem _ (List.mem_cons_of_mem _ (List.mem_cons_of_mem _ hword)))
  refine ⟨first, port, proto, formats, by rw [← words_strip, hwords], hfirst, hclean, ?_⟩
  rw [hclean, words_mediaLine fun word hword =>
    (isWord_of_mem_numbersOf hformats word (List.mem_of_mem_filter hword)).1, words_firstWords,
    hwords]
  rfl

theorem startsMedia_cleanMedia {line : Line} (h : startsMedia line = true) :
    startsMedia (cleanMedia unicode bad line) = true := by
  cases hmedia : mediaOf unicode (strip line) with
  | none => rwa [cleanMedia, hmedia]
  | some pair =>
    obtain ⟨first, port, proto, formats, -, hfirst, -, hwords⟩ := cleanMedia_of_mediaOf hmedia bad
    exact startsMedia_of_words hwords hfirst

theorem eolOf_eq (line : Line) : eolOf line = ['\r', '\n'] ∨ eolOf line = ['\n'] := by
  unfold eolOf
  split_ifs
  · exact .inl rfl
  · exact .inr rfl

theorem isLineBreak_of_mem_strip {line : Line} (h : IsLine line) :
    ∀ c ∈ strip line, isLineBreak c = false := by
  obtain ⟨-, body, ending, rfl, hbody, hending⟩ := h
  have hspace : ∀ c ∈ ending, isSpace c = true := by
    rcases hending with rfl | rfl | ⟨c, hc, rfl⟩
    · exact fun c hc => (List.not_mem_nil hc).elim
    · exact List.all_eq_true.mp (by decide)
    · intro d hd
      rw [List.mem_singleton.mp hd]
      exact isSpace_of_isLineBreak hc
  intro c hc
  rw [strip_append_of_forall body hspace] at hc
  exact hbody c (mem_of_mem_strip hc)

theorem isLine_cleanMedia {line : Line} (h : IsLine line) :
    IsLine (cleanMedia unicode bad line) := by
  cases hmedia : mediaOf unicode (strip line) with
  | none => rwa [cleanMedia, hmedia]
  | some pair =>
    obtain ⟨first, port, proto, formats, hwords, -, hclean, -⟩ := cleanMedia_of_mediaOf hmedia bad
    have hformats : ∀ word ∈ formats, IsWord word := fun word hword =>
      @isWord_of_mem_words line word (by
        rw [hwords]
        exact List.mem_cons_of_mem _ (List.mem_cons_of_mem _ (List.mem_cons_of_mem _ hword)))
    rw [hclean, mediaLine]
    generalize hkept :
      (numbersOf unicode formats).filter (fun number => unicode.value number ∉ bad) = kept
    refine ⟨?_, _, eolOf line, rfl, ?_, ?_⟩
    · rcases eolOf_eq line with heol | heol <;> simp [heol]
    · intro c hc
      have hspace : isLineBreak ' ' = false := by decide
      rcases List.mem_append.mp hc with hc | hc
      · rcases List.mem_append.mp hc with hc | hc
        · exact isLineBreak_of_mem_strip h c (mem_of_mem_firstWords hc)
        · split_ifs at hc
          · cases hc
          · rwa [List.mem_singleton.mp hc]
      · by_cases hc' : c ∈ [' ']
        · rwa [List.mem_singleton.mp hc']
        · obtain ⟨number, hnumber, hmem⟩ := mem_of_mem_intercalate hc' hc
          rw [← hkept] at hnumber
          have hword := isWord_of_mem_numbersOf hformats number (List.mem_of_mem_filter hnumber)
          exact isLineBreak_of_isSpace (hword.1.2 c hmem)
    · rcases eolOf_eq line with heol | heol
      · exact .inr (.inl heol)
      · exact .inr (.inr ⟨'\n', by decide, heol⟩)

theorem ended_cleanMedia {line : Line} (h : Ended line) :
    Ended (cleanMedia unicode bad line) := by
  cases hmedia : mediaOf unicode (strip line) with
  | none => rwa [cleanMedia, hmedia]
  | some pair =>
    obtain ⟨first, port, proto, formats, -, -, hclean, -⟩ := cleanMedia_of_mediaOf hmedia bad
    have hnewline : isLineBreak '\n' = true := by decide
    rw [hclean, mediaLine, Ended, List.getLast?_append]
    rcases eolOf_eq line with heol | heol <;> simp [heol, hnewline]

def cleanFirst (unicode : Unicode) (bad : List ℕ) (media : Line) : Line :=
  if bad = [] then media else cleanMedia unicode bad media

theorem cleanSection_cons (media : Line) (rest : List Line) :
    cleanSection unicode bad (media :: rest) =
      cleanFirst unicode bad media :: rest.filter (keeps unicode bad) := by
  rw [cleanSection, cleanFirst]
  split_ifs with hbad
  · rw [hbad, List.filter_eq_self.mpr fun line _ => keeps_nil line]
  · rfl

theorem startsOnce_cleanSection {lines : List Line} (h : Lists.StartsOnce startsMedia lines) :
    Lists.StartsOnce startsMedia (cleanSection unicode bad lines) := by
  obtain ⟨media, rest, rfl, hmedia, hrest⟩ := h
  refine ⟨_, _, cleanSection_cons media rest, ?_, ?_⟩
  · unfold cleanFirst
    split_ifs
    · exact hmedia
    · exact startsMedia_cleanMedia hmedia
  · intro line hline
    exact hrest line (List.mem_of_mem_filter hline)

theorem mem_cleanSection {lines : List Line} (hlines : Lists.StartsOnce startsMedia lines)
    {line : Line} (h : line ∈ cleanSection unicode bad lines) :
    ∃ old ∈ lines, (IsLine old → IsLine line) ∧ (Ended old → Ended line) := by
  obtain ⟨media, rest, rfl, -, -⟩ := hlines
  rw [cleanSection_cons] at h
  rcases List.mem_cons.mp h with rfl | h
  · refine ⟨media, List.mem_cons_self, ?_⟩
    unfold cleanFirst
    split_ifs
    · exact ⟨id, id⟩
    · exact ⟨isLine_cleanMedia, ended_cleanMedia⟩
  · exact ⟨line, List.mem_cons_of_mem _ (List.mem_of_mem_filter h), id, id⟩

theorem pairwise_cleanSection {lines : List Line} (hlines : Lists.StartsOnce startsMedia lines)
    (h : lines.Pairwise fun line _ => Ended line) :
    (cleanSection unicode bad lines).Pairwise fun line _ => Ended line := by
  obtain ⟨media, rest, rfl, -, -⟩ := hlines
  rw [cleanSection_cons]
  obtain ⟨hmedia, hrest⟩ := List.pairwise_cons.mp h
  refine List.pairwise_cons.mpr ⟨?_, hrest.sublist List.filter_sublist⟩
  intro line hline
  have hended := hmedia line (List.mem_of_mem_filter hline)
  unfold cleanFirst
  split_ifs
  · exact hended
  · exact ended_cleanMedia hended

theorem areLines_cleanSection {head lines tail : List Line}
    (hlines : Lists.StartsOnce startsMedia lines) (h : AreLines (head ++ (lines ++ tail))) :
    AreLines (head ++ (cleanSection unicode bad lines ++ tail)) := by
  obtain ⟨hhead, hmiddle, hcross⟩ := List.pairwise_append.mp h.ended
  obtain ⟨hpairwise, htail, hended⟩ := List.pairwise_append.mp hmiddle
  constructor
  · intro line hline
    rcases List.mem_append.mp hline with hline | hline
    · exact h.isLine line (List.mem_append_left _ hline)
    rcases List.mem_append.mp hline with hline | hline
    · obtain ⟨old, hold, hisLine, -⟩ := mem_cleanSection hlines hline
      exact hisLine (h.isLine old (List.mem_append_right _ (List.mem_append_left _ hold)))
    · exact h.isLine line (List.mem_append_right _ (List.mem_append_right _ hline))
  · refine List.pairwise_append.mpr ⟨hhead, List.pairwise_append.mpr
      ⟨pairwise_cleanSection hlines hpairwise, htail, ?_⟩, ?_⟩
    · intro line hline next hnext
      obtain ⟨old, hold, -, hendedOld⟩ := mem_cleanSection hlines hline
      exact hendedOld (hended old hold next hnext)
    · intro line hline next _
      obtain ⟨media, rest, rfl, -, -⟩ := hlines
      exact hcross line hline media (List.mem_append_left _ List.mem_cons_self)

/-- The sections that are left are lines still, after whatever stands before them. -/
theorem areLines_cleaned (removed : List Line → List ℕ) {head : List Line}
    {sections : List (List Line)} (h : AreLines (head ++ sections.flatten))
    (hstarts : ∀ s ∈ sections, Lists.StartsOnce startsMedia s) :
    AreLines (head ++ (sections.map fun s => cleanSection unicode (removed s) s).flatten) := by
  induction sections generalizing head with
  | nil => exact h
  | cons s sections ih =>
    have hclean := @areLines_cleanSection unicode (removed s) _ _ _ (hstarts s List.mem_cons_self) h
    rw [← List.append_assoc] at hclean
    have hrest := ih hclean fun t ht => hstarts t (List.mem_cons_of_mem _ ht)
    rwa [List.append_assoc] at hrest

end Result

end ReactorRuntime.WebRtc.Bundle
