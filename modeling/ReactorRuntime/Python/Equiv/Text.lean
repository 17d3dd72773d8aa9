import ReactorRuntime.Lists.Pointwise
import ReactorRuntime.Python.Text

/-!
# Lines and words of a text

A text is its lines put together (`flatten_splitLines`).  Lines that are put together come apart
again, but for one that ends with `\r` and is followed by one that is `\n` alone: what reads a line
without its end reads the same of both texts (`filterMap_splitLines_flatten`).

The words of a text are those of its parts on either side of a space (`words_append_space`).
-/

namespace ReactorRuntime.Python

/-! ### Spaces -/

theorem isSpace_of_isLineBreak {c : Char} (h : isLineBreak c = true) : isSpace c = true := by
  simp only [isLineBreak, List.mem_cons, List.not_mem_nil, or_false, decide_eq_true_eq] at h
  simp only [isSpace, List.mem_cons, List.not_mem_nil, or_false, decide_eq_true_eq]
  omega

theorem isLineBreak_of_isSpace {c : Char} (h : isSpace c = false) : isLineBreak c = false := by
  by_contra hbreak
  rw [isSpace_of_isLineBreak (Bool.not_eq_false _ ▸ hbreak)] at h
  cases h

theorem strip_concat {c : Char} (h : isSpace c = true) (text : List Char) :
    strip (text ++ [c]) = strip text := by
  unfold strip lstrip
  rw [List.dropWhile_append]
  cases hrest : text.dropWhile isSpace with
  | nil => simp [h]
  | cons d rest =>
    rw [List.isEmpty_cons, if_neg (by decide), List.rdropWhile_concat_pos _ _ _ h]

theorem isSpace_of_all {text : List Char} (h : (text.all fun c => !isSpace c) = true) :
    ∀ c ∈ text, isSpace c = false := by
  intro c hc
  have hall := List.all_eq_true.mp h c hc
  rwa [Bool.not_eq_true'] at hall

theorem prefix_rdropWhile {start : List Char} (h : ∀ c ∈ start, isSpace c = false)
    (text : List Char) : start <+: (start ++ text).rdropWhile isSpace := by
  induction text using List.reverseRecOn with
  | nil =>
    have hself : start.rdropWhile isSpace = start := by
      rw [List.rdropWhile_eq_self_iff]
      intro hl
      simp [h _ (List.getLast_mem hl)]
    exact ⟨[], by rw [List.append_nil, hself]⟩
  | append_singleton text c ih =>
    rw [← List.append_assoc, List.rdropWhile_concat]
    split_ifs
    · exact ih
    · exact (List.prefix_append start text).trans (List.prefix_append _ _)

theorem prefix_strip_append {start : List Char} (hne : start ≠ [])
    (h : ∀ c ∈ start, isSpace c = false) (text : List Char) :
    start <+: strip (start ++ text) := by
  have hstart : lstrip (start ++ text) = start ++ text := by
    obtain ⟨c, rest, rfl⟩ := List.exists_cons_of_ne_nil hne
    rw [List.cons_append, lstrip, List.dropWhile_cons_of_neg (by simp [h c List.mem_cons_self])]
  rw [strip, hstart]
  exact prefix_rdropWhile h text

theorem mem_of_mem_strip {text : List Char} {c : Char} (h : c ∈ strip text) : c ∈ text :=
  (List.dropWhile_sublist _).subset ((List.rdropWhile_prefix _ _).subset h)

theorem strip_append_of_forall (text : List Char) {rest : List Char}
    (h : ∀ c ∈ rest, isSpace c = true) : strip (text ++ rest) = strip text := by
  induction rest generalizing text with
  | nil => rw [List.append_nil]
  | cons c rest ih =>
    rw [List.append_cons, ih (text ++ [c]) fun d hd => h d (List.mem_cons_of_mem _ hd),
      strip_concat (h c List.mem_cons_self)]

/-! ### Lines -/

def IsLine (line : List Char) : Prop :=
  line ≠ [] ∧ ∃ body ending, line = body ++ ending ∧ (∀ c ∈ body, isLineBreak c = false) ∧
    (ending = [] ∨ ending = ['\r', '\n'] ∨ ∃ c, isLineBreak c = true ∧ ending = [c])

def Ended (text : List Char) : Prop := ∀ c ∈ text.getLast?, isLineBreak c = true

structure AreLines (lines : List (List Char)) : Prop where
  isLine : ∀ line ∈ lines, IsLine line
  ended : lines.Pairwise fun line _ => Ended line

theorem splitLines_cons {c : Char} {text : List Char}
    (h : ¬(c = '\r' ∧ text.head? = some '\n')) :
    splitLines (c :: text) =
      if isLineBreak c then [c] :: splitLines text else consLine c (splitLines text) := by
  rw [splitLines]
  rintro rest rfl rfl
  exact h ⟨rfl, rfl⟩

theorem flatten_consLine (c : Char) (lines : List (List Char)) :
    (consLine c lines).flatten = c :: lines.flatten := by
  cases lines <;> rfl

theorem consLine_append {c : Char} {lines : List (List Char)} (h : lines ≠ [])
    (rest : List (List Char)) : consLine c (lines ++ rest) = consLine c lines ++ rest := by
  cases lines with
  | nil => exact (h rfl).elim
  | cons line lines => rfl

theorem flatten_splitLines (text : List Char) : (splitLines text).flatten = text := by
  fun_induction splitLines text with
  | case1 => rfl
  | case2 text ih => rw [List.flatten_cons, ih]; rfl
  | case3 c text hno hbreak ih => rw [List.flatten_cons, ih]; rfl
  | case4 c text hno hbreak ih => rw [flatten_consLine, ih]

theorem splitLines_ne_nil {text : List Char} (h : text ≠ []) : splitLines text ≠ [] := by
  intro hnil
  have hflatten := flatten_splitLines text
  rw [hnil] at hflatten
  exact h hflatten.symm

theorem Ended.of_cons {c : Char} {text : List Char} (h : Ended (c :: text)) : Ended text := by
  cases text with
  | nil => exact fun c hc => by cases hc
  | cons d text => rwa [Ended, List.getLast?_cons_cons] at h

theorem splitLines_append {text rest : List Char} (hended : Ended text)
    (h : ¬(text.getLast? = some '\r' ∧ rest.head? = some '\n')) :
    splitLines (text ++ rest) = splitLines text ++ splitLines rest := by
  have hlast : ∀ {c : Char} {text : List Char},
      ¬((c :: text).getLast? = some '\r' ∧ rest.head? = some '\n') →
        ¬(text.getLast? = some '\r' ∧ rest.head? = some '\n') := by
    rintro c (_ | ⟨d, text⟩) hcons ⟨htext, hrest⟩
    · cases htext
    · exact hcons ⟨by rwa [List.getLast?_cons_cons], hrest⟩
  have hjoin : ∀ {c : Char} {text : List Char},
      ¬((c :: text).getLast? = some '\r' ∧ rest.head? = some '\n') →
        (∀ text', c = '\r' → text = '\n' :: text' → False) →
          ¬(c = '\r' ∧ (text ++ rest).head? = some '\n') := by
    rintro c (_ | ⟨d, text⟩) hcons hno ⟨rfl, hhead⟩
    · exact hcons ⟨rfl, hhead⟩
    · exact hno text rfl (by rw [Option.some.inj hhead])
  fun_induction splitLines text with
  | case1 => rfl
  | case2 text ih =>
    rw [List.cons_append, List.cons_append, splitLines, ih hended.of_cons.of_cons (hlast (hlast h)),
      List.cons_append]
  | case3 c text hno hbreak ih =>
    rw [List.cons_append, splitLines_cons (hjoin h hno), if_pos hbreak,
      ih hended.of_cons (hlast h), List.cons_append]
  | case4 c text hno hbreak ih =>
    have htext : text ≠ [] := by
      rintro rfl
      exact hbreak (hended c rfl)
    rw [List.cons_append, splitLines_cons (hjoin h hno), if_neg hbreak,
      ih hended.of_cons (hlast h), consLine_append (splitLines_ne_nil htext)]

theorem IsLine.splitLines_eq {line : List Char} (h : IsLine line) : splitLines line = [line] := by
  obtain ⟨hne, body, ending, rfl, hbody, hending⟩ := h
  induction body with
  | nil =>
    rcases hending with rfl | rfl | ⟨c, hc, rfl⟩
    · exact (hne rfl).elim
    · rfl
    · rw [List.nil_append, splitLines_cons (by simp), if_pos hc]
      rfl
  | cons c body ih =>
    have hc := hbody c List.mem_cons_self
    have hcr : c ≠ '\r' := by
      rintro rfl
      exact absurd hc (by decide)
    rw [List.cons_append, splitLines_cons fun hand => hcr hand.1, if_neg (by rw [hc]; decide)]
    by_cases hrest : body ++ ending = []
    · rw [hrest]
      rfl
    · rw [ih hrest fun d hd => hbody d (List.mem_cons_of_mem _ hd)]
      rfl

theorem areLines_splitLines (text : List Char) : AreLines (splitLines text) := by
  fun_induction splitLines text with
  | case1 => exact ⟨fun line hline => (List.not_mem_nil hline).elim, .nil⟩
  | case2 text ih =>
    refine ⟨?_, List.pairwise_cons.mpr ⟨fun _ _ c hc => ?_, ih.ended⟩⟩
    · intro line hline
      rcases List.mem_cons.mp hline with rfl | hline
      · exact ⟨List.cons_ne_nil _ _, [], _, rfl, fun c hc => (List.not_mem_nil hc).elim,
          .inr (.inl rfl)⟩
      · exact ih.isLine line hline
    · cases hc
      decide
  | case3 c text hno hbreak ih =>
    refine ⟨?_, List.pairwise_cons.mpr ⟨fun _ _ d hd => ?_, ih.ended⟩⟩
    · intro line hline
      rcases List.mem_cons.mp hline with rfl | hline
      · exact ⟨List.cons_ne_nil _ _, [], _, rfl, fun d hd => (List.not_mem_nil hd).elim,
          .inr (.inr ⟨c, hbreak, rfl⟩)⟩
      · exact ih.isLine line hline
    · cases hd
      exact hbreak
  | case4 c text hno hbreak ih =>
    have hc : isLineBreak c = false := Bool.not_eq_true _ ▸ hbreak
    cases hlines : splitLines text with
    | nil =>
      refine ⟨?_, List.pairwise_singleton _ _⟩
      intro line hline
      obtain rfl := List.mem_singleton.mp hline
      exact ⟨List.cons_ne_nil _ _, [c], [], rfl, fun d hd => List.mem_singleton.mp hd ▸ hc,
        .inl rfl⟩
    | cons first lines =>
      rw [hlines] at ih
      obtain ⟨hfirst, hrest⟩ := List.pairwise_cons.mp ih.ended
      obtain ⟨hne, body, ending, hbody, hnobreak, hending⟩ := ih.isLine first List.mem_cons_self
      refine ⟨?_, List.pairwise_cons.mpr ⟨fun next hnext d hd => ?_, hrest⟩⟩
      · intro line hline
        rcases List.mem_cons.mp hline with rfl | hline
        · refine ⟨List.cons_ne_nil _ _, c :: body, ending, by rw [hbody]; rfl, ?_, hending⟩
          intro d hd
          rcases List.mem_cons.mp hd with rfl | hd
          · exact hc
          · exact hnobreak d hd
        · exact ih.isLine line (List.mem_cons_of_mem _ hline)
      · refine hfirst next hnext d ?_
        rwa [List.getLast?_cons_of_ne_nil hne] at hd

theorem IsLine.eq_of_head? {line : List Char} (h : IsLine line) (hhead : line.head? = some '\n') :
    line = ['\n'] := by
  obtain ⟨hne, body, ending, rfl, hbody, hending⟩ := h
  cases body with
  | nil =>
    rcases hending with rfl | rfl | ⟨c, -, rfl⟩
    · cases hhead
    · exact absurd hhead (by decide)
    · rw [List.nil_append, List.head?_cons] at hhead
      rw [Option.some.inj hhead]
      rfl
  | cons c body =>
    obtain rfl : c = '\n' := Option.some.inj hhead
    exact absurd (hbody '\n' List.mem_cons_self) (by decide)

theorem IsLine.of_getLast? {line : List Char} (h : IsLine line)
    (hlast : line.getLast? = some '\r') :
    ∃ body, line = body ++ ['\r'] ∧ IsLine (body ++ ['\r', '\n']) := by
  obtain ⟨hne, body, ending, rfl, hbody, hending⟩ := h
  rcases hending with rfl | rfl | ⟨c, -, rfl⟩
  · rw [List.append_nil] at hlast
    exact absurd (hbody '\r' (List.mem_of_getLast? hlast)) (by decide)
  · rw [List.getLast?_append] at hlast
    exact absurd hlast (by simp)
  · rw [List.getLast?_concat] at hlast
    rw [Option.some.inj hlast]
    exact ⟨body, rfl, by simp, body, _, rfl, hbody, .inr (.inl rfl)⟩

theorem IsLine.splitLines_append {line : List Char} (h : IsLine line) (hended : Ended line)
    (rest : List Char) :
    splitLines (line ++ rest) = line :: splitLines rest ∨
      ∃ body rest', line = body ++ ['\r'] ∧ rest = '\n' :: rest' ∧
        splitLines (line ++ rest) = (body ++ ['\r', '\n']) :: splitLines rest' := by
  by_cases hjoin : line.getLast? = some '\r' ∧ rest.head? = some '\n'
  · obtain ⟨hlast, hhead⟩ := hjoin
    obtain ⟨body, rfl, hbody⟩ := h.of_getLast? hlast
    obtain ⟨rest', rfl⟩ := List.head?_eq_some_iff.mp hhead
    refine .inr ⟨body, rest', rfl, rfl, ?_⟩
    have htext : body ++ ['\r'] ++ '\n' :: rest' = body ++ ['\r', '\n'] ++ rest' := by simp
    rw [htext, Python.splitLines_append (by simp [Ended]; decide) (by simp), hbody.splitLines_eq]
    rfl
  · refine .inl ?_
    rw [Python.splitLines_append hended hjoin, h.splitLines_eq]
    rfl

def IgnoresEnd {α : Type*} (read : List Char → Option α) : Prop :=
  read ['\n'] = none ∧ ∀ line, read (line ++ ['\r', '\n']) = read (line ++ ['\r'])

theorem ignoresEnd_strip {α : Type*} {read : List Char → Option α} (h : read [] = none) :
    IgnoresEnd fun line => read (strip line) := by
  refine ⟨h, ?_⟩
  intro line
  have hline : strip (line ++ ['\r', '\n']) = strip (line ++ ['\r']) := by
    rw [List.append_cons, strip_concat (by decide)]
  exact congrArg read hline

theorem ignoresEnd_content {α : Type*} {read : List Char → Option α} (h : read [] = none) :
    IgnoresEnd fun line => read (content line) := by
  refine ⟨h, ?_⟩
  intro line
  have hline : content (line ++ ['\r', '\n']) = content (line ++ ['\r']) := by
    unfold content
    rw [List.takeWhile_append, List.takeWhile_append]
    rfl
  exact congrArg read hline

theorem AreLines.filterMap_splitLines {α : Type*} {read : List Char → Option α}
    (hread : IgnoresEnd read) {lines : List (List Char)} (h : AreLines lines) :
    (splitLines lines.flatten).filterMap read = lines.filterMap read := by
  induction lines with
  | nil => rfl
  | cons line lines ih =>
    obtain ⟨hended, hpairwise⟩ := List.pairwise_cons.mp h.ended
    have hrest := ih ⟨fun l hl => h.isLine l (List.mem_cons_of_mem _ hl), hpairwise⟩
    have hline := h.isLine line List.mem_cons_self
    rw [List.flatten_cons]
    cases lines with
    | nil => rw [List.flatten_nil, List.append_nil, hline.splitLines_eq]
    | cons next lines =>
      obtain hsplit | ⟨body, rest, rfl, hnewline, hsplit⟩ :=
        hline.splitLines_append (hended next List.mem_cons_self) (next :: lines).flatten
      · rw [hsplit, List.filterMap_cons, List.filterMap_cons, hrest]
      · -- the two lines come together, and the second one is empty
        have hnext : splitLines ('\n' :: rest) = ['\n'] :: splitLines rest := by
          rw [splitLines_cons (by simp), if_pos (by decide)]
        rw [hnewline, hnext, List.filterMap_cons_none hread.1] at hrest
        rw [hsplit, List.filterMap_cons, List.filterMap_cons, hread.2, hrest]

theorem Ended.append {text rest : List Char} (h : Ended text) (hrest : Ended rest) :
    Ended (text ++ rest) := by
  intro c hc
  rw [List.getLast?_append, Option.mem_def] at hc
  cases hlast : rest.getLast? with
  | none =>
    rw [hlast] at hc
    exact h c hc
  | some d =>
    rw [hlast] at hc
    obtain rfl := Option.some.inj hc
    exact hrest d hlast

theorem ended_flatten {lines : List (List Char)} (h : ∀ line ∈ lines, Ended line) :
    Ended lines.flatten := by
  induction lines with
  | nil => exact fun c hc => by cases hc
  | cons line lines ih =>
    exact (h line List.mem_cons_self).append (ih fun l hl => h l (List.mem_cons_of_mem _ hl))

theorem AreLines.sublist {lines lines' : List (List Char)} (h : AreLines lines)
    (hsub : lines'.Sublist lines) : AreLines lines' :=
  ⟨fun line hline => h.isLine line (hsub.subset hline), h.ended.sublist hsub⟩

/-! ### Words -/

def IsWord (word : List Char) : Prop := word ≠ [] ∧ ∀ c ∈ word, isSpace c = false

theorem words_append_space {c : Char} (hc : isSpace c = true) (text rest : List Char) :
    words (text ++ c :: rest) = words text ++ words rest := by
  rw [words, List.splitOnP_append_cons _ _ hc, List.filter_append]
  rfl

theorem words_nil : words [] = [] := by
  rw [words, List.splitOnP_nil]
  rfl

theorem words_cons {c : Char} (hc : isSpace c = true) (text : List Char) :
    words (c :: text) = words text := by
  have happend := words_append_space hc [] text
  rwa [words_nil, List.nil_append, List.nil_append] at happend

theorem IsWord.words_eq {word : List Char} (h : IsWord word) : words word = [word] := by
  rw [words, List.splitOnP_eq_singleton h.2, List.filter_cons_of_pos (by simpa using h.1)]
  rfl

theorem IsWord.words_append {word : List Char} (h : IsWord word) {rest : List Char}
    (hrest : ∀ c ∈ rest.head?, isSpace c = true) : words (word ++ rest) = word :: words rest := by
  cases rest with
  | nil => rw [List.append_nil, h.words_eq, words_nil]
  | cons c rest =>
    have hc := hrest c rfl
    rw [words_append_space hc, h.words_eq, words_cons hc]
    rfl

theorem words_append_of_forall (text : List Char) {rest : List Char}
    (h : ∀ c ∈ rest, isSpace c = true) : words (text ++ rest) = words text := by
  induction rest generalizing text with
  | nil => rw [List.append_nil]
  | cons c rest ih =>
    have hrest := ih (text ++ [c]) fun d hd => h d (List.mem_cons_of_mem _ hd)
    have hc : words (text ++ [c]) = words text := by
      rw [words_append_space (h c List.mem_cons_self), words_nil, List.append_nil]
    rw [List.append_cons, hrest, hc]

theorem words_lstrip (text : List Char) : words (lstrip text) = words text := by
  induction text with
  | nil => rfl
  | cons c text ih =>
    rw [lstrip, List.dropWhile_cons]
    split_ifs with hc
    · rw [words_cons hc]
      exact ih
    · rfl

theorem words_strip (text : List Char) : words (strip text) = words text := by
  have hspaces : ∀ c ∈ (lstrip text).rtakeWhile isSpace, isSpace c = true := fun c hc =>
    List.mem_rtakeWhile_imp hc
  rw [← words_lstrip text, ← words_append_of_forall (strip text) hspaces, strip,
    List.rdropWhile_append_rtakeWhile]

theorem isSpace_of_mem_splitOnP (text : List Char) :
    ∀ part ∈ text.splitOnP isSpace, ∀ c ∈ part, isSpace c = false := by
  induction text with
  | nil =>
    intro part hpart c hc
    rw [List.splitOnP_nil, List.mem_singleton] at hpart
    rw [hpart] at hc
    cases hc
  | cons d text ih =>
    intro part hpart c hc
    rw [List.splitOnP_cons_eq_if_modifyHead] at hpart
    obtain ⟨first, parts, hparts⟩ :=
      List.exists_cons_of_ne_nil (List.splitOnP_ne_nil isSpace text)
    rw [hparts] at hpart ih
    split_ifs at hpart with hd
    · rcases List.mem_cons.mp hpart with rfl | hpart
      · cases hc
      · exact ih part hpart c hc
    · rw [List.modifyHead_cons] at hpart
      rcases List.mem_cons.mp hpart with rfl | hpart
      · rcases List.mem_cons.mp hc with rfl | hc
        · exact Bool.not_eq_true _ ▸ hd
        · exact ih first List.mem_cons_self c hc
      · exact ih part (List.mem_cons_of_mem _ hpart) c hc

theorem isWord_of_mem_words {text word : List Char} (h : word ∈ words text) : IsWord word := by
  obtain ⟨hmem, hne⟩ := List.mem_filter.mp h
  exact ⟨by simpa using hne, isSpace_of_mem_splitOnP text word hmem⟩

theorem words_intercalate {parts : List (List Char)} (h : ∀ word ∈ parts, IsWord word) :
    words ([' '].intercalate parts) = parts := by
  induction parts with
  | nil => exact words_nil
  | cons word parts ih =>
    have hword := h word List.mem_cons_self
    cases parts with
    | nil => rw [List.intercalate_singleton, hword.words_eq]
    | cons next parts =>
      rw [List.intercalate_cons_cons, List.append_assoc, List.singleton_append,
        words_append_space (by decide), hword.words_eq,
        ih fun w hw => h w (List.mem_cons_of_mem _ hw)]
      rfl

theorem isSpace_of_mem_head?_lstrip (text : List Char) :
    ∀ c ∈ (lstrip text).head?, isSpace c = false := by
  intro c hc
  have hnot := List.head?_dropWhile_not isSpace text
  unfold lstrip at hc
  rw [hc] at hnot
  exact hnot

theorem isWord_takeWhile {text : List Char} (h : lstrip text ≠ []) :
    IsWord ((lstrip text).takeWhile fun c => !isSpace c) := by
  obtain ⟨c, rest, hrest⟩ := List.exists_cons_of_ne_nil h
  have hc : isSpace c = false := isSpace_of_mem_head?_lstrip text c (by rw [hrest]; rfl)
  refine ⟨?_, ?_⟩
  · rw [hrest, List.takeWhile_cons_of_pos (by rw [hc]; rfl)]
    exact List.cons_ne_nil _ _
  · intro d hd
    simpa using List.mem_takeWhile_imp hd

theorem isSpace_of_mem_head?_dropWhile (text : List Char) :
    ∀ c ∈ (text.dropWhile fun c => !isSpace c).head?, isSpace c = true := by
  intro c hc
  have hnot := List.head?_dropWhile_not (fun c => !isSpace c) text
  rw [hc] at hnot
  simpa using hnot

theorem words_eq_cons {text : List Char} (h : lstrip text ≠ []) :
    words text = ((lstrip text).takeWhile fun c => !isSpace c) ::
      words ((lstrip text).dropWhile fun c => !isSpace c) := by
  rw [← words_lstrip text]
  conv_lhs => rw [← List.takeWhile_append_dropWhile (p := fun c => !isSpace c) (l := lstrip text)]
  exact (isWord_takeWhile h).words_append (isSpace_of_mem_head?_dropWhile _)

theorem words_append_left {spaces : List Char} (h : ∀ c ∈ spaces, isSpace c = true)
    (text : List Char) : words (spaces ++ text) = words text := by
  induction spaces with
  | nil => rfl
  | cons c spaces ih =>
    rw [List.cons_append, words_cons (h c List.mem_cons_self),
      ih fun d hd => h d (List.mem_cons_of_mem _ hd)]

theorem mem_of_mem_intercalate {c : Char} {separator : List Char} {parts : List (List Char)}
    (hc : c ∉ separator) (h : c ∈ separator.intercalate parts) : ∃ part ∈ parts, c ∈ part := by
  induction parts with
  | nil => cases h
  | cons part parts ih =>
    cases parts with
    | nil =>
      rw [List.intercalate_singleton] at h
      exact ⟨part, List.mem_cons_self, h⟩
    | cons next parts =>
      rw [List.intercalate_cons_cons, List.append_assoc] at h
      rcases List.mem_append.mp h with h | h
      · exact ⟨part, List.mem_cons_self, h⟩
      rcases List.mem_append.mp h with h | h
      · exact absurd h hc
      · obtain ⟨p, hp, hmem⟩ := ih h
        exact ⟨p, List.mem_cons_of_mem _ hp, hmem⟩

/-! ### Numbers -/

/-- The number that digits write. -/
def Unicode.value (unicode : Unicode) (digits : List Char) : ℕ :=
  Json.ofDigits (digits.filterMap unicode.decimal?)

/-- `int` reads a number that is short enough. -/
theorem readNat_eq (unicode : Unicode) {digits : List Char}
    (h : ∀ c ∈ digits, unicode.isDecimal c = true) :
    readNat unicode digits =
      if digits.length ≤ Json.maxDigits then some (unicode.value digits) else none := by
  rw [readNat, Lists.mapM_eq_some_filterMap h]
  rfl

end ReactorRuntime.Python
