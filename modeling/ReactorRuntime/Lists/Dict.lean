import Mathlib.Data.List.Nodup

/-!
# Dictionaries that keep their insertion order

A dictionary is the list of its entries, in the order in which their keys came.  Setting a key
replaces its entry in place, or adds one at the end.

* `lookup_set`: what a lookup finds after a key was set.
* `ofPairs_of_nodup`: pairs with distinct keys are the entries of the dictionary they make.
-/

namespace ReactorRuntime.Lists.Dict

variable {κ α β : Type*} [DecidableEq κ] {d : List (κ × α)} {k k' : κ} {v : α}

/-- The dictionary with a key set. -/
def set (d : List (κ × α)) (k : κ) (v : α) : List (κ × α) :=
  match d with
  | [] => [(k, v)]
  | (k', w) :: d => if k' = k then (k, v) :: d else (k', w) :: set d k v

/-- The dictionary of some pairs, of which the later ones count. -/
def ofPairs (pairs : List (κ × α)) : List (κ × α) :=
  pairs.foldl (fun d pair => set d pair.1 pair.2) []

-- The equations of the recursive function, for the proofs about it.
attribute [local simp] set

theorem lookup_cons_if {entry : κ × α} :
    (entry :: d).lookup k = if k = entry.1 then some entry.2 else d.lookup k := by
  obtain ⟨k', w⟩ := entry
  rw [List.lookup_cons]
  by_cases h : k = k'
  · subst h
    simp
  · rw [if_neg h, beq_eq_false_iff_ne.mpr h]

theorem set_of_notMem (h : k ∉ d.map Prod.fst) : set d k v = d ++ [(k, v)] := by
  induction d with
  | nil => rfl
  | cons entry d ih =>
    have hne : entry.1 ≠ k := fun heq => h (heq ▸ List.mem_cons_self)
    rw [set, if_neg hne, ih fun hk => h (List.mem_cons_of_mem _ hk), List.cons_append]

theorem keys_set : (set d k v).map Prod.fst =
    if k ∈ d.map Prod.fst then d.map Prod.fst else d.map Prod.fst ++ [k] := by
  induction d with
  | nil => rfl
  | cons entry d ih =>
    rw [set]
    by_cases heq : entry.1 = k
    · subst heq
      rw [if_pos rfl, List.map_cons, List.map_cons, if_pos List.mem_cons_self]
    · rw [if_neg heq, List.map_cons, ih, List.map_cons]
      by_cases hmem : k ∈ d.map Prod.fst
      · rw [if_pos hmem, if_pos (List.mem_cons_of_mem _ hmem)]
      · have hnot : k ∉ entry.1 :: d.map Prod.fst := by
          rw [List.mem_cons, not_or]
          exact ⟨Ne.symm heq, hmem⟩
        rw [if_neg hmem, if_neg hnot, List.cons_append]

theorem nodup_set (h : (d.map Prod.fst).Nodup) : ((set d k v).map Prod.fst).Nodup := by
  rw [keys_set]
  split_ifs with hmem
  · exact h
  · exact List.nodup_append.mpr ⟨h, List.nodup_singleton k, fun a ha b hb => by
      rw [List.mem_singleton.mp hb]
      rintro rfl
      exact hmem ha⟩

theorem lookup_set : (set d k v).lookup k' = if k' = k then some v else d.lookup k' := by
  induction d with
  | nil => exact lookup_cons_if
  | cons entry d ih =>
    rw [set, lookup_cons_if]
    by_cases heq : entry.1 = k
    · subst heq
      rw [if_pos rfl, lookup_cons_if]
      by_cases h : k' = entry.1
      · rw [if_pos h, if_pos h]
      · rw [if_neg h, if_neg h, if_neg h]
    · rw [if_neg heq, lookup_cons_if, ih]
      by_cases h : k' = entry.1
      · subst h
        rw [if_pos rfl, if_neg heq, if_pos rfl]
      · rw [if_neg h, if_neg h]

theorem nodup_ofPairs (pairs : List (κ × α)) : ((ofPairs pairs).map Prod.fst).Nodup := by
  unfold ofPairs
  suffices h : ∀ d : List (κ × α), (d.map Prod.fst).Nodup →
      ((pairs.foldl (fun d pair => set d pair.1 pair.2) d).map Prod.fst).Nodup from
    h [] List.nodup_nil
  induction pairs with
  | nil => exact fun d hd => hd
  | cons pair pairs ih => exact fun d hd => ih _ (nodup_set hd)

theorem ofPairs_of_nodup {pairs : List (κ × α)} (h : (pairs.map Prod.fst).Nodup) :
    ofPairs pairs = pairs := by
  unfold ofPairs
  suffices hall : ∀ d : List (κ × α), ((d ++ pairs).map Prod.fst).Nodup →
      pairs.foldl (fun d pair => set d pair.1 pair.2) d = d ++ pairs from hall [] h
  clear h
  induction pairs with
  | nil => exact fun d _ => (List.append_nil d).symm
  | cons pair pairs ih =>
    intro d hd
    have hnot : pair.1 ∉ d.map Prod.fst := by
      rw [List.map_append, List.map_cons] at hd
      exact fun hmem => (List.nodup_append.mp hd).2.2 _ hmem _ List.mem_cons_self rfl
    rw [List.foldl_cons, set_of_notMem hnot, ih, List.append_assoc]
    · rfl
    · rwa [List.append_assoc]

theorem lookup_filter_ne :
    (d.filter fun entry => entry.1 ≠ k).lookup k' = if k' = k then none else d.lookup k' := by
  induction d with
  | nil => simp
  | cons entry d ih =>
    by_cases heq : entry.1 = k
    · rw [List.filter_cons_of_neg (by simpa using heq), ih, lookup_cons_if, heq]
      split_ifs <;> rfl
    · rw [List.filter_cons_of_pos (by simpa using heq), lookup_cons_if, lookup_cons_if, ih]
      by_cases h : k' = entry.1
      · rw [if_pos h, if_pos h, if_neg (h ▸ heq)]
      · rw [if_neg h, if_neg h]

theorem nodup_filter (h : (d.map Prod.fst).Nodup) (p : κ × α → Bool) :
    ((d.filter p).map Prod.fst).Nodup :=
  h.sublist (List.filter_sublist.map Prod.fst)

/-- A key that occurs once is found with its value. -/
theorem lookup_of_mem (h : (d.map Prod.fst).Nodup) (hmem : (k, v) ∈ d) : d.lookup k = some v := by
  induction d with
  | nil => cases hmem
  | cons entry d ih =>
    rw [List.map_cons, List.nodup_cons] at h
    rw [lookup_cons_if]
    rcases List.mem_cons.mp hmem with heq | hmem
    · subst heq
      exact if_pos rfl
    · have hne : k ≠ entry.1 := fun heq => h.1 (heq ▸ List.mem_map_of_mem hmem)
      rw [if_neg hne]
      exact ih h.2 hmem

theorem mem_of_lookup (h : d.lookup k = some v) : (k, v) ∈ d := by
  induction d with
  | nil => cases h
  | cons entry d ih =>
    rw [lookup_cons_if] at h
    split_ifs at h with hk
    · cases h
      exact hk ▸ List.mem_cons_self
    · exact List.mem_cons_of_mem _ (ih h)

/-- A value that is the only one of its key is found. -/
theorem lookup_of_unique (hmem : (k, v) ∈ d) (hunique : ∀ w, (k, w) ∈ d → w = v) :
    d.lookup k = some v := by
  cases hlookup : d.lookup k with
  | none =>
    have hne := List.lookup_eq_none_iff.mp hlookup (k, v) hmem
    simp at hne
  | some w => rw [hunique w (mem_of_lookup hlookup)]

/-- A lookup goes through dictionaries one after the other. -/
theorem lookup_flatMap {β : Type*} {l : List β} {g : β → List (κ × α)} :
    (l.flatMap g).lookup k = l.findSome? fun b => (g b).lookup k := by
  induction l with
  | nil => rfl
  | cons b l ih =>
    rw [List.flatMap_cons, List.lookup_append, ih, List.findSome?_cons]
    cases (g b).lookup k <;> rfl

theorem mem_of_mem_set {entry : κ × α} (h : entry ∈ set d k v) : entry ∈ d ∨ entry = (k, v) := by
  induction d with
  | nil => exact .inr (List.mem_singleton.mp h)
  | cons first d ih =>
    rw [set] at h
    split_ifs at h with hk
    · rcases List.mem_cons.mp h with rfl | h
      · exact .inr rfl
      · exact .inl (List.mem_cons_of_mem first h)
    · rcases List.mem_cons.mp h with rfl | h
      · exact .inl List.mem_cons_self
      · exact (ih h).imp_left (List.mem_cons_of_mem first)

/-- The entries of a dictionary are among the pairs that make it. -/
theorem mem_of_mem_ofPairs {pairs : List (κ × α)} {entry : κ × α} (hmem : entry ∈ ofPairs pairs) :
    entry ∈ pairs := by
  suffices h : ∀ d : List (κ × α),
      entry ∈ pairs.foldl (fun d pair => set d pair.1 pair.2) d → entry ∈ d ∨ entry ∈ pairs by
    rcases h [] hmem with h | h
    · cases h
    · exact h
  clear hmem
  induction pairs with
  | nil => exact fun d h => .inl h
  | cons first pairs ih =>
    intro d h
    rcases ih _ h with h | h
    · rcases mem_of_mem_set h with h | rfl
      · exact .inl h
      · exact .inr List.mem_cons_self
    · exact .inr (List.mem_cons_of_mem first h)

/-- A key of which all pairs have one value is found with it. -/
theorem lookup_ofPairs {pairs : List (κ × α)} (hvalue : ∀ pair ∈ pairs, pair.1 = k → pair.2 = v)
    (hkey : k ∈ pairs.map Prod.fst) : (ofPairs pairs).lookup k = some v := by
  suffices h : ∀ d : List (κ × α), (k ∈ pairs.map Prod.fst ∨ d.lookup k = some v) →
      (pairs.foldl (fun d pair => set d pair.1 pair.2) d).lookup k = some v from h [] (.inl hkey)
  clear hkey
  induction pairs with
  | nil =>
    rintro d (h | h)
    · cases h
    · exact h
  | cons first pairs ih =>
    intro d h
    refine ih (fun pair hpair => hvalue pair (List.mem_cons_of_mem first hpair)) _ ?_
    by_cases hfirst : k = first.1
    · refine .inr ?_
      rw [lookup_set, if_pos hfirst, hvalue first List.mem_cons_self hfirst.symm]
    · refine h.imp (fun hmem => ?_) fun hfound => ?_
      · exact (List.mem_cons.mp hmem).resolve_left hfirst
      · rw [lookup_set, if_neg hfirst, hfound]

end ReactorRuntime.Lists.Dict
