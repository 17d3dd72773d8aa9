import Mathlib.Data.Nat.Digits.Lemmas
import ReactorRuntime.Python.Json

/-!
# JSON text is read back

`loads_dumps`: the text of a value is read back as that value, where the keys of each dictionary are
distinct, the strings are texts and no integer has more digits than `int` reads (`Value.Printable`).
-/

namespace ReactorRuntime.Python

namespace Json

/-! ### Digits -/

theorem digit?_digitChar : ∀ d, d < 10 → digit? (digitChar d) = some d := by decide

theorem readDigits_append {ds : List ℕ} {rest : List Char} (hds : ∀ d ∈ ds, d < 10)
    (hrest : ∀ c ∈ rest.head?, digit? c = none) :
    readDigits (ds.map digitChar ++ rest) = (ds, rest) := by
  induction ds with
  | nil =>
    cases rest with
    | nil => rfl
    | cons c rest =>
      have hc := hrest c rfl
      simp [readDigits, hc]
  | cons d ds ih =>
    have hd := digit?_digitChar d (hds d (List.mem_cons_self ..))
    have ih := ih fun d hd => hds d (List.mem_cons_of_mem _ hd)
    simp only [List.map_cons, List.cons_append, readDigits, hd, ih]

theorem ofDigits_append_singleton (ds : List ℕ) (d : ℕ) :
    ofDigits (ds ++ [d]) = 10 * ofDigits ds + d := by
  rw [ofDigits, List.foldl_append]
  rfl

theorem ofDigits_append (ds ds' : List ℕ) :
    ofDigits (ds ++ ds') = ofDigits ds * 10 ^ ds'.length + ofDigits ds' := by
  induction ds' using List.reverseRecOn with
  | nil => simp [ofDigits]
  | append_singleton ds' d ih =>
    rw [← List.append_assoc, ofDigits_append_singleton, ofDigits_append_singleton, ih,
      List.length_append, List.length_singleton, pow_succ]
    ring

@[simp] theorem ofDigits_replicate_zero (k : ℕ) : ofDigits (List.replicate k 0) = 0 := by
  induction k with
  | zero => rfl
  | succ k ih => rw [List.replicate_succ', ofDigits_append_singleton, ih]

theorem ofDigits_reverse (ds : List ℕ) : ofDigits ds.reverse = Nat.ofDigits 10 ds := by
  induction ds with
  | nil => rfl
  | cons d ds ih =>
    rw [List.reverse_cons, ofDigits_append_singleton, ih, Nat.ofDigits_cons]
    simp [Nat.add_comm]

theorem ofDigits_digitsOf (n : ℕ) : ofDigits (digitsOf n) = n := by
  unfold digitsOf
  split_ifs with hn
  · rw [hn]
    rfl
  · rw [ofDigits_reverse, Nat.ofDigits_digits]

theorem lt_of_mem_digitsOf {n d : ℕ} (hd : d ∈ digitsOf n) : d < 10 := by
  unfold digitsOf at hd
  split_ifs at hd
  · rw [List.mem_singleton.mp hd]
    norm_num
  · exact Nat.digits_lt_base (by norm_num) (List.mem_reverse.mp hd)

theorem digitsOf_eq_cons {n : ℕ} (hn : n ≠ 0) : ∃ d ds, digitsOf n = d :: ds ∧ d ≠ 0 := by
  have hne : Nat.digits 10 n ≠ [] := Nat.digits_ne_nil_iff_ne_zero.mpr hn
  refine ⟨(Nat.digits 10 n).getLast hne, (Nat.digits 10 n).dropLast.reverse, ?_,
    Nat.getLast_digit_ne_zero 10 hn⟩
  rw [digitsOf, if_neg hn]
  conv_lhs => rw [← List.dropLast_append_getLast hne]
  rw [List.reverse_append]
  rfl

theorem digitsOf_ne_nil (n : ℕ) : digitsOf n ≠ [] := by
  by_cases hn : n = 0
  · simp [digitsOf, hn]
  · obtain ⟨d, ds, hds, -⟩ := digitsOf_eq_cons hn
    simp [hds]

/-! ### Numbers -/

/-- What may stand after a value: the text ends, or goes on with a separator or a closing bracket. -/
def Ends (rest : List Char) : Prop := ∀ c ∈ rest.head?, c = ',' ∨ c = ']' ∨ c = '\x7d'

theorem Ends.digit? {rest : List Char} (h : Ends rest) : ∀ c ∈ rest.head?, digit? c = none := by
  intro c hc
  rcases h c hc with rfl | rfl | rfl <;> rfl

theorem Ends.readFraction {rest : List Char} (h : Ends rest) : readFraction rest = (none, rest) := by
  cases rest with
  | nil => rfl
  | cons c rest => rcases h c rfl with rfl | rfl | rfl <;> rfl

theorem Ends.readExponent {rest : List Char} (h : Ends rest) : readExponent rest = (none, rest) := by
  cases rest with
  | nil => rfl
  | cons c rest => rcases h c rfl with rfl | rfl | rfl <;> rfl

/-- Digits that can be an integer part: one, or more without a zero in front. -/
def IsWhole (ds : List ℕ) : Prop := (∀ d ∈ ds, d < 10) ∧ (ds = [0] ∨ ∃ d ds', ds = d :: ds' ∧ d ≠ 0)

theorem isWhole_digitsOf (n : ℕ) : IsWhole (digitsOf n) := by
  refine ⟨fun d hd => lt_of_mem_digitsOf hd, ?_⟩
  by_cases hn : n = 0
  · left
    rw [digitsOf, if_pos hn]
  · right
    exact digitsOf_eq_cons hn

theorem readWhole_append {ds : List ℕ} {rest : List Char} (hds : IsWhole ds)
    (hrest : ∀ c ∈ rest.head?, digit? c = none) :
    readWhole (ds.map digitChar ++ rest) = some (ds, rest) := by
  unfold readWhole
  rw [readDigits_append hds.1 hrest]
  rcases hds.2 with rfl | ⟨d, ds', rfl, hd⟩
  · rfl
  · obtain ⟨k, rfl⟩ := Nat.exists_eq_succ_of_ne_zero hd
    rfl

theorem readNumber_int {ds : List ℕ} {rest : List Char} {negative : Bool} (hds : IsWhole ds)
    (hlen : ds.length ≤ maxDigits) (hrest : Ends rest) :
    readNumber negative (ds.map digitChar ++ rest) =
      some (.int (if negative then -(ofDigits ds : ℤ) else ofDigits ds), rest) := by
  unfold readNumber
  rw [readWhole_append hds hrest.digit?]
  simp only [Option.bind_eq_bind, Option.bind_some, hrest.readFraction, hrest.readExponent]
  rw [if_neg (by omega)]
  rfl

theorem readFraction_append {ds : List ℕ} {rest : List Char} (hne : ds ≠ [])
    (hds : ∀ d ∈ ds, d < 10) (hrest : ∀ c ∈ rest.head?, digit? c = none) :
    readFraction ('.' :: (ds.map digitChar ++ rest)) = (some ds, rest) := by
  simp only [readFraction, readDigits_append hds hrest]

theorem ofDigits_exponentDigits (n : ℕ) : ofDigits (exponentDigits n) = n := by
  unfold exponentDigits
  split_ifs
  · rw [← List.singleton_append, ofDigits_append, ofDigits_digitsOf]
    simp [ofDigits]
  · exact ofDigits_digitsOf n

theorem lt_of_mem_exponentDigits {n d : ℕ} (hd : d ∈ exponentDigits n) : d < 10 := by
  unfold exponentDigits at hd
  split_ifs at hd
  · rcases List.mem_cons.mp hd with rfl | hd
    · norm_num
    · exact lt_of_mem_digitsOf hd
  · exact lt_of_mem_digitsOf hd

theorem exponentDigits_eq_cons (n : ℕ) : ∃ d ds, exponentDigits n = d :: ds := by
  unfold exponentDigits
  split_ifs
  · exact ⟨0, digitsOf n, rfl⟩
  · exact List.exists_cons_of_ne_nil (digitsOf_ne_nil n)

theorem readExponent_write {e : ℤ} {rest : List Char}
    (hrest : ∀ c ∈ rest.head?, digit? c = none) :
    readExponent (writeExponent e ++ rest) = (some e, rest) := by
  have hread := readDigits_append (fun d => lt_of_mem_exponentDigits (n := e.natAbs)) hrest
  have hvalue := ofDigits_exponentDigits e.natAbs
  obtain ⟨d, ds, hds⟩ := exponentDigits_eq_cons e.natAbs
  rw [hds] at hread hvalue
  rw [writeExponent, hds, List.cons_append, List.cons_append, readExponent, if_pos (Or.inl rfl)]
  split_ifs with he
  · simp only [readSign, hread, if_true, hvalue]
    congr 2
    omega
  · simp only [readSign, hread, Bool.false_eq_true, if_false, hvalue]
    congr 2
    omega

theorem head?_writeExponent (e : ℤ) (rest : List Char) :
    (writeExponent e ++ rest).head? = some 'e' := rfl

theorem readNumber_float {whole : List ℕ} {rest rest' rest'' : List Char} {negative : Bool}
    {fraction : Option (List ℕ)} {exponent : Option ℤ} (hwhole : IsWhole whole)
    (hrest : ∀ c ∈ rest.head?, digit? c = none) (hfraction : readFraction rest = (fraction, rest'))
    (hexponent : readExponent rest' = (exponent, rest''))
    (hsome : fraction ≠ none ∨ exponent ≠ none) :
    readNumber negative (whole.map digitChar ++ rest) =
      some (.float (.ofDecimal negative (ofDigits (whole ++ fraction.getD []))
        (exponent.getD 0 - (fraction.getD []).length)), rest'') := by
  unfold readNumber
  rw [readWhole_append hwhole hrest]
  simp only [Option.bind_eq_bind, Option.bind_some, hfraction, hexponent]
  cases fraction <;> cases exponent <;> first | rfl | simp at hsome

theorem isWhole_take {n k : ℕ} (hn : n ≠ 0) (hk : 0 < k) : IsWhole ((digitsOf n).take k) := by
  refine ⟨fun d hd => lt_of_mem_digitsOf (List.mem_of_mem_take hd), .inr ?_⟩
  obtain ⟨d, ds, hds, hd⟩ := digitsOf_eq_cons hn
  obtain ⟨k, rfl⟩ := Nat.exists_eq_succ_of_ne_zero hk.ne'
  exact ⟨d, ds.take k, by rw [hds, List.take_succ_cons], hd⟩

theorem isWhole_zero : IsWhole [0] := ⟨by simp, .inl rfl⟩

theorem readNumber_writeDecimal (x : Decimal) {rest : List Char} (hrest : Ends rest) :
    readNumber x.negative (writeDecimal x.digits x.exponent ++ rest) =
      some (.float (.finite x), rest) := by
  obtain ⟨negative, n, e, hnormal, hbounded⟩ := x
  dsimp only
  have hlen : 0 < (digitsOf n).length := List.length_pos_of_ne_nil (digitsOf_ne_nil n)
  have hmul := PyFloat.ofDecimal_mul_pow ⟨negative, n, e, hnormal, hbounded⟩
  unfold writeDecimal
  simp only [decimal, List.length_map]
  split_ifs with hfixed he hpoint hone
  · -- zeros up to the point, and one after it
    have htext : (digitsOf n).map digitChar ++ zeros e.toNat ++ ['.', digitChar 0] ++ rest =
        (digitsOf n ++ List.replicate e.toNat 0).map digitChar ++
          '.' :: ([0].map digitChar ++ rest) := by
      simp [zeros]
    have hwhole : IsWhole (digitsOf n ++ List.replicate e.toNat 0) := by
      rcases hnormal with hn | ⟨rfl, rfl⟩
      · obtain ⟨d, ds, hds, hd⟩ := digitsOf_eq_cons (n := n) (by rintro rfl; simp at hn)
        refine ⟨?_, .inr ⟨d, ds ++ List.replicate e.toNat 0, by rw [hds, List.cons_append], hd⟩⟩
        intro d' hd'
        rcases List.mem_append.mp hd' with hd' | hd'
        · exact lt_of_mem_digitsOf hd'
        · rw [(List.mem_replicate.mp hd').2]
          norm_num
      · simpa using isWhole_digitsOf 0
    rw [htext, readNumber_float hwhole (by simp; decide)
      (readFraction_append (by simp) (by simp) hrest.digit?) hrest.readExponent (.inl (by simp))]
    have hvalue : ofDigits (digitsOf n ++ List.replicate e.toNat 0 ++ [0]) =
        n * 10 ^ (e.toNat + 1) := by
      rw [ofDigits_append_singleton, ofDigits_append, ofDigits_digitsOf, List.length_replicate,
        ofDigits_replicate_zero, pow_succ]
      ring
    have hexponent : (0 : ℤ) - 1 = e - ((e.toNat + 1 : ℕ) : ℤ) := by omega
    simp only [Option.getD_some, Option.getD_none, List.length_singleton, Nat.cast_one, hvalue,
      hexponent, hmul]
  · -- the point inside the digits
    have hn : n ≠ 0 := by omega
    have htext : ((digitsOf n).map digitChar).take ((digitsOf n).length + e).toNat ++
        '.' :: ((digitsOf n).map digitChar).drop ((digitsOf n).length + e).toNat ++ rest =
        ((digitsOf n).take ((digitsOf n).length + e).toNat).map digitChar ++
          '.' :: (((digitsOf n).drop ((digitsOf n).length + e).toNat).map digitChar ++ rest) := by
      simp
    rw [htext, readNumber_float (isWhole_take hn (by omega)) (by simp; decide)
      (readFraction_append (by rw [ne_eq, List.drop_eq_nil_iff]; omega)
        (fun d hd => lt_of_mem_digitsOf (List.mem_of_mem_drop hd)) hrest.digit?)
      hrest.readExponent (.inl (by simp))]
    have hexponent : (0 : ℤ) - (((digitsOf n).drop ((digitsOf n).length + e).toNat).length : ℤ) =
        e - ((0 : ℕ) : ℤ) := by
      rw [List.length_drop]
      omega
    have hmul := hmul 0
    rw [pow_zero, Nat.mul_one] at hmul
    simp only [Option.getD_some, Option.getD_none, List.take_append_drop, ofDigits_digitsOf,
      hexponent, hmul]
  · -- zeros after the point
    have hn : n ≠ 0 := by omega
    have htext : digitChar 0 :: '.' :: zeros (-((digitsOf n).length + e)).toNat ++
        (digitsOf n).map digitChar ++ rest = [0].map digitChar ++ '.' ::
          ((List.replicate (-((digitsOf n).length + e)).toNat 0 ++ digitsOf n).map digitChar ++
            rest) := by
      simp [zeros]
    rw [htext, readNumber_float isWhole_zero (by simp; decide)
      (readFraction_append (by simp [digitsOf_ne_nil]) (by
        intro d hd
        rcases List.mem_append.mp hd with hd | hd
        · rw [(List.mem_replicate.mp hd).2]
          norm_num
        · exact lt_of_mem_digitsOf hd) hrest.digit?)
      hrest.readExponent (.inl (by simp))]
    have hvalue : ofDigits ([0] ++
        (List.replicate (-((digitsOf n).length + e)).toNat 0 ++ digitsOf n)) = n := by
      rw [ofDigits_append, ofDigits_append, ofDigits_replicate_zero, ofDigits_digitsOf]
      simp [ofDigits]
    have hexponent : (0 : ℤ) - ((List.replicate (-((digitsOf n).length + e)).toNat 0 ++
        digitsOf n).length : ℤ) = e - ((0 : ℕ) : ℤ) := by
      rw [List.length_append, List.length_replicate]
      omega
    have hmul := hmul 0
    rw [pow_zero, Nat.mul_one] at hmul
    simp only [Option.getD_some, Option.getD_none, hvalue, hexponent, hmul]
  · -- one digit with an exponent
    have hfraction : readFraction (writeExponent ((digitsOf n).length + e - 1) ++ rest) =
        (none, writeExponent ((digitsOf n).length + e - 1) ++ rest) := rfl
    rw [List.append_assoc, readNumber_float (isWhole_digitsOf n)
      (by rw [head?_writeExponent]; simp; decide) hfraction
      (readExponent_write hrest.digit?) (.inr (by simp))]
    have hexponent : ((digitsOf n).length : ℤ) + e - 1 - (([] : List ℕ).length : ℤ) =
        e - ((0 : ℕ) : ℤ) := by
      rw [hone, List.length_nil]
      omega
    have hmul := hmul 0
    rw [pow_zero, Nat.mul_one] at hmul
    simp only [Option.getD_some, Option.getD_none, List.append_nil, ofDigits_digitsOf, hexponent,
      hmul]
  · -- the point after the first digit, and an exponent
    have hn : n ≠ 0 := by
      rintro rfl
      exact hone rfl
    have htext : ((digitsOf n).map digitChar).take 1 ++ '.' :: ((digitsOf n).map digitChar).drop 1 ++
        writeExponent ((digitsOf n).length + e - 1) ++ rest = ((digitsOf n).take 1).map digitChar ++
          '.' :: (((digitsOf n).drop 1).map digitChar ++
            (writeExponent ((digitsOf n).length + e - 1) ++ rest)) := by
      simp
    rw [htext, readNumber_float (isWhole_take hn one_pos) (by simp; decide)
      (readFraction_append (by rw [ne_eq, List.drop_eq_nil_iff]; omega)
        (fun d hd => lt_of_mem_digitsOf (List.mem_of_mem_drop hd))
        (by rw [head?_writeExponent]; simp; decide))
      (readExponent_write hrest.digit?) (.inl (by simp))]
    have hexponent : ((digitsOf n).length : ℤ) + e - 1 - (((digitsOf n).drop 1).length : ℤ) =
        e - ((0 : ℕ) : ℤ) := by
      rw [List.length_drop]
      omega
    have hmul := hmul 0
    rw [pow_zero, Nat.mul_one] at hmul
    simp only [Option.getD_some, List.take_append_drop, ofDigits_digitsOf, hexponent, hmul]

/-! ### Strings -/

theorem hex?_hexChar : ∀ d, d < 16 → hex? (hexChar d) = some d := by decide

theorem readHex_unicodeEscape {u : ℕ} (hu : u < 65536) (rest : List Char) :
    readHex (hexChar (u / 4096 % 16) :: hexChar (u / 256 % 16) :: hexChar (u / 16 % 16) ::
      hexChar (u % 16) :: rest) = some (u, rest) := by
  simp only [readHex, hex?_hexChar _ (Nat.mod_lt _ (by norm_num : 16 > 0)), Option.bind_eq_bind,
    Option.bind_some, Option.pure_def, Option.some.injEq, Prod.mk.injEq, and_true]
  omega

/-- A character that is neither a backslash nor a control character stands for itself. -/
theorem readPoint_char {c : Char} (hc : c ≠ '\\') (hcontrol : ¬c.toNat < 32) (rest : List Char) :
    readPoint (c :: rest) = some (c.toNat, rest) := by
  rw [readPoint.eq_def]
  split <;> simp_all

/-- A code unit that is not the first half of a surrogate pair. -/
theorem readPoint_unicodeEscape {u : ℕ} (hu : u < 65536) (hhigh : ¬(55296 ≤ u ∧ u < 56320))
    (rest : List Char) : readPoint (unicodeEscape u ++ rest) = some (u, rest) := by
  show readPoint ('\\' :: 'u' :: _) = _
  simp only [readPoint, List.append_eq, List.nil_append, List.cons_append,
    readHex_unicodeEscape hu, if_neg hhigh]

theorem readPoint_surrogates {high low : ℕ} (hhigh : high < 1024) (hlow : low < 1024)
    (rest : List Char) :
    readPoint (unicodeEscape (55296 + high) ++ unicodeEscape (56320 + low) ++ rest) =
      some (65536 + high * 1024 + low, rest) := by
  have hsecond : readLow (unicodeEscape (56320 + low) ++ rest) = some (56320 + low, rest) := by
    show readLow ('\\' :: 'u' :: _) = _
    simp only [readLow, List.append_eq, List.nil_append, List.cons_append,
      readHex_unicodeEscape (show 56320 + low < 65536 by omega)]
    rw [if_pos (by omega)]
  rw [List.append_assoc]
  show readPoint ('\\' :: 'u' :: _) = _
  simp only [readPoint, List.append_eq, List.nil_append, List.cons_append,
    readHex_unicodeEscape (show 55296 + high < 65536 by omega)]
  rw [if_pos (by omega)]
  simp only [hsecond, Option.some.injEq, Prod.mk.injEq, and_true]
  omega

theorem toNat_ofNat {p : ℕ} (hp : p.isValidChar) : (Char.ofNat p).toNat = p := by
  rw [Char.ofNat, dif_pos hp]
  rfl

theorem readPoint_escape {p : ℕ} (hp : p.isValidChar) (rest : List Char) :
    readPoint (escape p ++ rest) = some (p, rest) := by
  have hvalid : p < 55296 ∨ 57343 < p ∧ p < 1114112 := hp
  unfold escape
  split_ifs with h1 h2 h3 h4 h5 h6 h7 hprint hsmall
  any_goals
    subst p
    rfl
  · have hto := toNat_ofNat hp
    rw [List.singleton_append, readPoint_char, hto]
    · intro hc
      rw [hc] at hto
      exact h2 hto.symm
    · omega
  · exact readPoint_unicodeEscape hsmall (by omega) rest
  · rw [readPoint_surrogates (by omega) (by omega)]
    simp only [Option.some.injEq, Prod.mk.injEq, and_true]
    omega

/-- No code point is written with a quote in front. -/
theorem escape_eq_cons {p : ℕ} : ∃ c cs, escape p = c :: cs ∧ c ≠ '"' := by
  unfold escape
  split_ifs with h1 h2 h3 h4 h5 h6 h7 hprint hsmall
  on_goal 8 =>
    refine ⟨_, _, rfl, ?_⟩
    intro hc
    have hto := toNat_ofNat (p := p) (.inl (by omega))
    rw [hc] at hto
    exact h1 hto.symm
  all_goals exact ⟨'\\', _, rfl, by decide⟩

theorem readPoints_succ {fuel : ℕ} {cs : List Char} (hcs : ∀ rest, cs ≠ '"' :: rest) :
    readPoints (fuel + 1) cs = (do
      let (p, cs) ← readPoint cs
      let (ps, rest) ← readPoints fuel cs
      return (p :: ps, rest)) := by
  rw [readPoints]
  exact hcs

theorem readPoints_flatMap_escape {ps : List ℕ} (hps : ∀ p ∈ ps, p.isValidChar) (rest : List Char) :
    ∀ fuel, ps.length ≤ fuel →
      readPoints fuel (ps.flatMap escape ++ '"' :: rest) = some (ps, rest) := by
  induction ps with
  | nil =>
    intro fuel _
    cases fuel <;> rfl
  | cons p ps ih =>
    intro fuel hfuel
    obtain ⟨fuel, rfl⟩ := Nat.exists_eq_succ_of_ne_zero
      (Nat.pos_iff_ne_zero.mp ((Nat.succ_pos _).trans_le hfuel))
    have ih := ih (fun q hq => hps q (List.mem_cons_of_mem _ hq)) fuel (Nat.succ_le_succ_iff.mp hfuel)
    have hread := readPoint_escape (hps p (List.mem_cons_self ..))
      (ps.flatMap escape ++ '"' :: rest)
    rw [List.flatMap_cons, List.append_assoc]
    obtain ⟨c, cs, hescape, hc⟩ := escape_eq_cons (p := p)
    rw [hescape, List.cons_append] at hread ⊢
    rw [readPoints_succ fun rest h => hc (List.cons.inj h).1]
    simp only [hread, ih, Option.bind_eq_bind, Option.bind_some, Option.pure_def]

theorem length_le_flatMap_escape (ps : List ℕ) : ps.length ≤ (ps.flatMap escape).length := by
  induction ps with
  | nil => rfl
  | cons p ps ih =>
    obtain ⟨c, cs, hescape, -⟩ := escape_eq_cons (p := p)
    rw [List.flatMap_cons, List.length_append, hescape, List.length_cons, List.length_cons]
    omega

theorem readStr_writeStr (s : String) (rest : List Char) :
    ∃ cs, writeStr (.text s) ++ rest = '"' :: cs ∧ readStr cs = some (.text s, rest) := by
  refine ⟨(PyStr.text s).points.flatMap escape ++ '"' :: rest, by simp [writeStr], ?_⟩
  have hvalid : ∀ p ∈ (PyStr.text s).points, p.isValidChar := by
    intro p hp
    obtain ⟨c, -, rfl⟩ := List.mem_map.mp hp
    exact c.valid
  have hfuel : (PyStr.text s).points.length ≤
      ((PyStr.text s).points.flatMap escape ++ '"' :: rest).length := by
    have := length_le_flatMap_escape (PyStr.text s).points
    rw [List.length_append]
    omega
  rw [readStr, readPoints_flatMap_escape hvalid rest _ hfuel, Option.map_some,
    PyStr.ofPoints_points_text]

/-! ### Values -/

end Json

mutual

/-- Whether the text of a value is read back as the value. -/
def Value.Printable : Json → Prop
  | .none | .bool _ | .float _ => True
  | .int n => (Json.digitsOf n.natAbs).length ≤ Json.maxDigits
  | .str s => ∃ t, s = .text t
  | .list items => Value.PrintableItems items
  | .dict entries => (entries.map Prod.fst).Nodup ∧ Value.PrintableEntries entries

def Value.PrintableItems : List Json → Prop
  | [] => True
  | item :: items => item.Printable ∧ Value.PrintableItems items

def Value.PrintableEntries : List (PyStr × Json) → Prop
  | [] => True
  | (key, value) :: entries =>
    (∃ t, key = .text t) ∧ value.Printable ∧ Value.PrintableEntries entries

end

namespace Json

mutual

/-- The fuel that reading a value takes. -/
def size : Json → ℕ
  | .list items => sizeItems items + 1
  | .dict entries => sizeEntries entries + 1
  | _ => 1

/-- The fuel that reading the items of a list takes. -/
def sizeItems : List Json → ℕ
  | [] => 0
  | item :: items => max (size item) (sizeItems items) + 1

/-- The fuel that reading the entries of a dictionary takes. -/
def sizeEntries : List (PyStr × Json) → ℕ
  | [] => 0
  | (_, value) :: entries => max (size value) (sizeEntries entries) + 1

end

/-- What a value may start with: neither whitespace nor a closing bracket. -/
def Starts (cs : List Char) : Prop :=
  ∃ c cs', cs = c :: cs' ∧ isSpace c = false ∧ c ≠ ']' ∧ c ≠ '\x7d'

theorem Starts.append {cs : List Char} (h : Starts cs) (rest : List Char) : Starts (cs ++ rest) := by
  obtain ⟨c, cs, rfl, hc⟩ := h
  exact ⟨c, cs ++ rest, rfl, hc⟩

theorem Starts.length_pos {cs : List Char} (h : Starts cs) : 1 ≤ cs.length := by
  obtain ⟨c, cs, rfl, -⟩ := h
  exact Nat.succ_le_succ (Nat.zero_le _)

/-- What a number that is not negative starts with. -/
theorem decimal_eq_cons (n : ℕ) : ∃ d cs, d < 10 ∧ decimal n = digitChar d :: cs := by
  obtain ⟨d, ds, hds⟩ := List.exists_cons_of_ne_nil (digitsOf_ne_nil n)
  refine ⟨d, ds.map digitChar, lt_of_mem_digitsOf (n := n) ?_, ?_⟩
  · rw [hds]
    exact List.mem_cons_self ..
  · rw [decimal, hds, List.map_cons]

theorem writeDecimal_eq_cons (n : ℕ) (e : ℤ) :
    ∃ d cs, d < 10 ∧ writeDecimal n e = digitChar d :: cs := by
  obtain ⟨d, cs, hd, hcs⟩ := decimal_eq_cons n
  unfold writeDecimal
  simp only [hcs]
  split_ifs with hfixed he hpoint hone
  · exact ⟨d, _, hd, rfl⟩
  · obtain ⟨k, hk⟩ := Int.eq_succ_of_zero_lt hpoint
    rw [hk]
    exact ⟨d, _, hd, rfl⟩
  · exact ⟨0, _, by norm_num, rfl⟩
  · exact ⟨d, _, hd, rfl⟩
  · exact ⟨d, _, hd, rfl⟩

theorem starts_digitChar {d : ℕ} (hd : d < 10) (cs : List Char) : Starts (digitChar d :: cs) := by
  refine ⟨_, cs, rfl, ?_⟩
  revert d
  decide

theorem starts_write (v : Json) : Starts (write v) := by
  cases v with
  | none => exact ⟨'n', _, rfl, by decide⟩
  | bool b => cases b <;> exact ⟨_, _, rfl, by decide⟩
  | int n =>
    obtain ⟨d, cs, hd, hcs⟩ := decimal_eq_cons n.natAbs
    rw [write, writeInt, hcs]
    split_ifs
    · exact ⟨'-', _, rfl, by decide⟩
    · exact starts_digitChar hd cs
  | float x =>
    cases x with
    | finite x =>
      obtain ⟨d, cs, hd, hcs⟩ := writeDecimal_eq_cons x.digits x.exponent
      rw [write, writeFloat, hcs]
      split_ifs
      · exact ⟨'-', _, rfl, by decide⟩
      · exact starts_digitChar hd cs
    | inf negative => cases negative <;> exact ⟨_, _, rfl, by decide⟩
    | nan => exact ⟨'N', _, rfl, by decide⟩
  | str s => exact ⟨'"', _, rfl, by decide⟩
  | list items => exact ⟨'[', _, rfl, by decide⟩
  | dict entries => exact ⟨'\x7b', _, rfl, by decide⟩
  | object a => exact a.elim

theorem skip_of_not_space {c : Char} {cs : List Char} (hc : isSpace c = false) :
    skip (c :: cs) = c :: cs := by
  rw [skip, List.dropWhile_cons_of_neg (by simp [hc])]

theorem insert_of_not_mem {entries : List (PyStr × Json)} {key : PyStr} {value : Json}
    (h : key ∉ entries.map Prod.fst) : insert entries key value = entries ++ [(key, value)] := by
  rw [insert, if_neg]
  rw [Bool.not_eq_true, List.any_eq_false]
  intro e he heq
  exact h (List.mem_map.mpr ⟨e, he, by simpa using heq⟩)

theorem read_digit {d : ℕ} (hd : d < 10) (cs : List Char) (fuel : ℕ) :
    read (fuel + 1) (digitChar d :: cs) = readNumber false (digitChar d :: cs) := by
  interval_cases d <;> rfl

theorem read_minus {d : ℕ} (hd : d < 10) (cs : List Char) (fuel : ℕ) :
    read (fuel + 1) ('-' :: digitChar d :: cs) = readNumber true (digitChar d :: cs) := by
  interval_cases d <;> rfl

theorem read_int {n : ℤ} (hn : (digitsOf n.natAbs).length ≤ maxDigits) {rest : List Char}
    (hrest : Ends rest) (fuel : ℕ) : read (fuel + 1) (writeInt n ++ rest) = some (.int n, rest) := by
  obtain ⟨d, cs, hd, hcs⟩ := decimal_eq_cons n.natAbs
  have hnumber : ∀ negative, readNumber negative ((digitsOf n.natAbs).map digitChar ++ rest) =
      some (.int (if negative then -(ofDigits (digitsOf n.natAbs) : ℤ)
        else ofDigits (digitsOf n.natAbs)), rest) :=
    fun _ => readNumber_int (isWhole_digitsOf n.natAbs) hn hrest
  rw [← decimal, hcs, List.cons_append, ofDigits_digitsOf] at hnumber
  unfold writeInt
  rw [hcs]
  split_ifs with hneg
  · rw [List.cons_append, List.cons_append, read_minus hd, hnumber true]
    congr 3
    rw [if_pos rfl]
    omega
  · rw [List.cons_append, read_digit hd, hnumber false]
    congr 3
    rw [if_neg (by simp)]
    omega

theorem read_float (x : PyFloat) {rest : List Char} (hrest : Ends rest) (fuel : ℕ) :
    read (fuel + 1) (writeFloat x ++ rest) = some (.float x, rest) := by
  cases x with
  | inf negative => cases negative <;> rfl
  | nan => rfl
  | finite x =>
    obtain ⟨d, cs, hd, hcs⟩ := writeDecimal_eq_cons x.digits x.exponent
    have hnumber := readNumber_writeDecimal x hrest
    rw [hcs, List.cons_append] at hnumber
    rw [writeFloat, hcs]
    split_ifs with hneg
    · rw [hneg] at hnumber
      rw [List.cons_append, List.cons_append, read_minus hd, hnumber]
    · rw [Bool.not_eq_true] at hneg
      rw [hneg] at hnumber
      rw [List.cons_append, read_digit hd, hnumber]

theorem read_list {cs : List Char} (hcs : Starts cs) (fuel : ℕ) :
    read (fuel + 1) ('[' :: cs) = (readItems fuel cs).map fun r => (.list r.1, r.2) := by
  obtain ⟨c, cs, rfl, hspace, hclose, -⟩ := hcs
  rw [read, skip_of_not_space hspace]
  split
  · rename_i heq
    exact absurd (List.cons.inj heq).1 hclose
  · rfl

theorem read_dict (cs : List Char) (fuel : ℕ) :
    read (fuel + 1) ('\x7b' :: '"' :: cs) =
      (readEntries fuel [] ('"' :: cs)).map fun r => (.dict r.1, r.2) := rfl

theorem skip_space {cs : List Char} (hcs : Starts cs) : skip (' ' :: cs) = cs := by
  obtain ⟨c, cs, rfl, hspace, -⟩ := hcs
  exact skip_of_not_space hspace

/-- The last entry of a dictionary. -/
theorem readEntries_close {fuel : ℕ} {before : List (PyStr × Json)} {cs rest : List Char}
    {key : PyStr} {value : Json}
    (hkey : readStr cs = some (key, ':' :: ' ' :: (write value ++ '\x7d' :: rest)))
    (hvalue : read fuel (write value ++ '\x7d' :: rest) = some (value, '\x7d' :: rest)) :
    readEntries (fuel + 1) before ('"' :: cs) = some (insert before key value, rest) := by
  rw [readEntries, hkey]
  show (read fuel (skip (' ' :: _))).bind _ = _
  rw [skip_space ((starts_write value).append _), hvalue]
  rfl

/-- An entry that another one follows. -/
theorem readEntries_comma {fuel : ℕ} {before : List (PyStr × Json)} {cs rest : List Char}
    {key : PyStr} {value : Json}
    (hkey : readStr cs = some (key, ':' :: ' ' :: (write value ++ ',' :: rest)))
    (hvalue : read fuel (write value ++ ',' :: rest) = some (value, ',' :: rest)) :
    readEntries (fuel + 1) before ('"' :: cs) =
      readEntries fuel (insert before key value) (skip rest) := by
  rw [readEntries, hkey]
  show (read fuel (skip (' ' :: _))).bind _ = _
  rw [skip_space ((starts_write value).append _), hvalue]
  rfl

mutual

theorem read_write : ∀ (v : Json) (rest : List Char) (fuel : ℕ), v.Printable → Ends rest →
    size v ≤ fuel → read fuel (write v ++ rest) = some (v, rest)
  | .none, rest, fuel + 1, _, _, _ => rfl
  | .bool true, rest, fuel + 1, _, _, _ => rfl
  | .bool false, rest, fuel + 1, _, _, _ => rfl
  | .int n, rest, fuel + 1, hv, hrest, _ => read_int hv hrest fuel
  | .float x, rest, fuel + 1, _, hrest, _ => read_float x hrest fuel
  | .str s, rest, fuel + 1, hv, _, _ => by
    obtain ⟨t, rfl⟩ := hv
    obtain ⟨cs, hcs, hread⟩ := readStr_writeStr t rest
    rw [write, hcs, read, hread]
    rfl
  | .list [], rest, fuel + 1, _, _, _ => rfl
  | .list (item :: items), rest, fuel + 1, hv, _, hfuel => by
    have hitems := readItems_write item items rest fuel hv (Nat.succ_le_succ_iff.mp hfuel)
    have hstarts : Starts (writeItems (item :: items) ++ rest) := by
      cases items with
      | nil => exact ((starts_write item).append _).append _
      | cons item' items => exact ((starts_write item).append _).append _
    rw [write, List.cons_append, read_list hstarts, hitems]
    rfl
  | .dict [], rest, fuel + 1, _, _, _ => rfl
  | .dict ((key, value) :: entries), rest, fuel + 1, hv, _, hfuel => by
    have hentries := readEntries_write key value entries [] rest fuel hv.2 (by simpa using hv.1)
      (Nat.succ_le_succ_iff.mp hfuel)
    have hquote : ∃ cs, writeEntries ((key, value) :: entries) ++ rest = '"' :: cs := by
      cases entries with
      | nil => exact ⟨_, rfl⟩
      | cons entry entries => exact ⟨_, rfl⟩
    obtain ⟨cs, hcs⟩ := hquote
    rw [hcs] at hentries
    rw [write, List.cons_append, hcs, read_dict, hentries]
    rfl

theorem readItems_write : ∀ (item : Json) (items : List Json) (rest : List Char) (fuel : ℕ),
    Value.PrintableItems (item :: items) → sizeItems (item :: items) ≤ fuel →
      readItems fuel (writeItems (item :: items) ++ rest) = some (item :: items, rest)
  | item, [], rest, fuel + 1, hv, hfuel => by
    have hitem := read_write item (']' :: rest) fuel hv.1 (by simp [Ends])
      ((Nat.le_max_left ..).trans (Nat.succ_le_succ_iff.mp hfuel))
    rw [writeItems, List.append_assoc, readItems]
    simp only [List.cons_append, List.nil_append, hitem, Option.bind_eq_bind, Option.bind_some]
    rfl
  | item, item' :: items, rest, fuel + 1, hv, hfuel => by
    have hitem := read_write item (',' :: ' ' :: (writeItems (item' :: items) ++ rest)) fuel hv.1
      (by simp [Ends]) ((Nat.le_max_left ..).trans (Nat.succ_le_succ_iff.mp hfuel))
    have hitems := readItems_write item' items rest fuel hv.2
      ((Nat.le_max_right ..).trans (Nat.succ_le_succ_iff.mp hfuel))
    have hstarts : Starts (writeItems (item' :: items) ++ rest) := by
      cases items with
      | nil => exact ((starts_write item').append _).append _
      | cons item'' items => exact ((starts_write item').append _).append _
    rw [writeItems, List.append_assoc, readItems]
    simp only [List.cons_append, hitem, Option.bind_eq_bind, Option.bind_some]
    show (readItems fuel (skip (' ' :: _))).bind _ = _
    rw [skip_space hstarts, hitems]
    rfl

theorem readEntries_write : ∀ (key : PyStr) (value : Json) (entries : List (PyStr × Json))
    (before : List (PyStr × Json)) (rest : List Char) (fuel : ℕ),
    Value.PrintableEntries ((key, value) :: entries) →
      ((before ++ (key, value) :: entries).map Prod.fst).Nodup →
        sizeEntries ((key, value) :: entries) ≤ fuel →
          readEntries fuel before (writeEntries ((key, value) :: entries) ++ rest) =
            some (before ++ (key, value) :: entries, rest)
  | key, value, [], before, rest, fuel + 1, hv, hnodup, hfuel => by
    obtain ⟨⟨k, rfl⟩, hvalue, -⟩ := hv
    have hread := read_write value ('\x7d' :: rest) fuel hvalue (by simp [Ends])
      ((Nat.le_max_left ..).trans (Nat.succ_le_succ_iff.mp hfuel))
    obtain ⟨cs, hcs, hkey⟩ := readStr_writeStr k (':' :: ' ' :: (write value ++ '\x7d' :: rest))
    have htext : writeEntries [(.text k, value)] ++ rest = '"' :: cs := by
      rw [← hcs, writeEntries]
      simp
    rw [htext, readEntries_close hkey hread, insert_of_not_mem]
    rw [List.map_append] at hnodup
    exact fun hmem => (List.nodup_append.mp hnodup).2.2 _ hmem _ (List.mem_cons_self ..) rfl
  | key, value, (key', value') :: entries, before, rest, fuel + 1, hv, hnodup, hfuel => by
    obtain ⟨⟨k, rfl⟩, hvalue, hv⟩ := hv
    have hread := read_write value (',' :: ' ' :: (writeEntries ((key', value') :: entries) ++ rest))
      fuel hvalue (by simp [Ends]) ((Nat.le_max_left ..).trans (Nat.succ_le_succ_iff.mp hfuel))
    have hentries := readEntries_write key' value' entries (before ++ [(.text k, value)]) rest fuel hv
      (by simpa using hnodup) ((Nat.le_max_right ..).trans (Nat.succ_le_succ_iff.mp hfuel))
    obtain ⟨cs, hcs, hkey⟩ := readStr_writeStr k (':' :: ' ' :: (write value ++ ',' :: ' ' ::
      (writeEntries ((key', value') :: entries) ++ rest)))
    have htext : writeEntries ((.text k, value) :: (key', value') :: entries) ++ rest = '"' :: cs := by
      rw [← hcs, writeEntries]
      simp
    have hstarts : Starts (writeEntries ((key', value') :: entries) ++ rest) := by
      cases entries with
      | nil => exact ⟨'"', _, rfl, by decide⟩
      | cons entry entries => exact ⟨'"', _, rfl, by decide⟩
    rw [htext, readEntries_comma hkey hread, skip_space hstarts, insert_of_not_mem, hentries,
      List.append_assoc, List.singleton_append]
    rw [List.map_append] at hnodup
    exact fun hmem => (List.nodup_append.mp hnodup).2.2 _ hmem _ (List.mem_cons_self ..) rfl

end

mutual

theorem size_le_length : ∀ v : Json, size v ≤ (write v).length
  | .none | .bool true | .bool false => by simp [size, write]
  | .int n => (starts_write (.int n)).length_pos
  | .float x => (starts_write (.float x)).length_pos
  | .str s => (starts_write (.str s)).length_pos
  | .list items => by
    have := sizeItems_le_length items
    simp only [size, write, List.length_cons]
    omega
  | .dict entries => by
    have := sizeEntries_le_length entries
    simp only [size, write, List.length_cons]
    omega

theorem sizeItems_le_length : ∀ items : List Json, sizeItems items ≤ (writeItems items).length
  | [] => Nat.zero_le _
  | [item] => by
    have := size_le_length item
    simp only [sizeItems, writeItems, List.length_append, List.length_singleton]
    omega
  | item :: item' :: items => by
    have := size_le_length item
    have := sizeItems_le_length (item' :: items)
    rw [sizeItems]
    simp only [writeItems, List.length_append, List.length_cons]
    omega

theorem sizeEntries_le_length : ∀ entries : List (PyStr × Json),
    sizeEntries entries ≤ (writeEntries entries).length
  | [] => Nat.zero_le _
  | [(key, value)] => by
    have := size_le_length value
    simp only [sizeEntries, writeEntries, List.length_append, List.length_cons]
    omega
  | (key, value) :: entry :: entries => by
    have := size_le_length value
    have := sizeEntries_le_length (entry :: entries)
    rw [sizeEntries]
    simp only [writeEntries, List.length_append, List.length_cons]
    omega

end

/-- **Round trip**: the text of a value is read back as the value. -/
theorem loads_dumps {v : Json} (hv : v.Printable) : loads (dumps v) = some v := by
  obtain ⟨c, cs, hcs, hspace, -⟩ := starts_write v
  have hread := read_write v [] ((write v).length + 1) hv (by simp [Ends])
    ((size_le_length v).trans (Nat.le_succ _))
  rw [List.append_nil, hcs] at hread
  simp only [loads, dumps, String.toList_ofList, hcs, skip_of_not_space hspace, hread,
    Option.bind_eq_bind, Option.bind_some]
  rfl

end Json

end ReactorRuntime.Python
