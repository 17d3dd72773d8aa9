import Mathlib.Data.List.AList
import Mathlib.Data.Finset.Card

/-!
# Tables: association lists whose values have one type

What a lookup finds after an insertion, an erasure or a replacement, with the test on the key as an
`if`; an erasure that only happens where the entry is the expected one (`eraseValue`); and the keys
of a table as a finite set.
-/

namespace ReactorRuntime.Lists

variable {κ α : Type*} [DecidableEq κ]

/-! ### Lookups -/

section Lookup

variable {t : AList fun _ : κ => α} {k k' : κ} {v : α}

theorem lookup_insert_if :
    (t.insert k v).lookup k' = if k' = k then some v else t.lookup k' := by
  split_ifs with h
  · rw [h, AList.lookup_insert]
  · exact AList.lookup_insert_ne h

theorem lookup_erase_if : (t.erase k).lookup k' = if k' = k then none else t.lookup k' := by
  split_ifs with h
  · rw [h, AList.lookup_erase]
  · exact AList.lookup_erase_ne h

theorem dlookup_kreplace (l : List (Sigma fun _ : κ => α)) (h : k ∈ l.keys) :
    (l.kreplace k v).dlookup k' = if k' = k then some v else l.dlookup k' := by
  induction l with
  | nil => simp at h
  | cons s l ih =>
    obtain ⟨c, w⟩ := s
    by_cases hc : k = c
    · subst hc
      have hhead : List.kreplace k v (⟨k, w⟩ :: l) = ⟨k, v⟩ :: l := by simp [List.kreplace]
      rw [hhead]
      by_cases hk : k' = k
      · subst hk
        simp
      · simp [List.dlookup_cons_ne, hk]
    · have htail : List.kreplace k v (⟨c, w⟩ :: l) = ⟨c, w⟩ :: List.kreplace k v l := by
        simp [List.kreplace, hc]
      rw [htail]
      by_cases hk : k' = c
      · subst hk
        simp [Ne.symm hc]
      · rw [List.dlookup_cons_ne _ _ hk, List.dlookup_cons_ne _ _ hk]
        exact ih (by simpa [hc] using h)

theorem lookup_replace_if (h : k ∈ t) :
    (t.replace k v).lookup k' = if k' = k then some v else t.lookup k' :=
  dlookup_kreplace t.entries h

theorem mem_of_lookup (h : t.lookup k = some v) : k ∈ t :=
  AList.lookup_isSome.mp (by rw [h]; rfl)

theorem mem_keys_iff : k ∈ t.keys ↔ ∃ v, t.lookup k = some v := by
  rw [← AList.mem_keys, ← AList.lookup_isSome, Option.isSome_iff_exists]

end Lookup

/-! ### Erasing an entry that is the expected one -/

variable [DecidableEq α] (t : AList fun _ : κ => α) {k k' : κ} {v : α}

/-- The table without the entry of `k`, if it holds `v`. -/
def eraseValue (k : κ) (v : α) : AList fun _ : κ => α :=
  if t.lookup k = some v then t.erase k else t

theorem lookup_eraseValue_if :
    (eraseValue t k v).lookup k' = if k' = k ∧ t.lookup k = some v then none else t.lookup k' := by
  unfold eraseValue
  split_ifs with h hk hk
  · rw [hk.1, AList.lookup_erase]
  · exact AList.lookup_erase_ne fun he => hk ⟨he, h⟩
  · exact absurd hk.2 h
  · rfl

theorem of_lookup_erase {t : AList fun _ : κ => α} {w : α} (h : (t.erase k).lookup k' = some w) :
    t.lookup k' = some w := by
  rw [lookup_erase_if] at h
  split_ifs at h
  exact h

variable {t} in
theorem of_lookup_eraseValue {w : α} (h : (eraseValue t k v).lookup k' = some w) :
    t.lookup k' = some w := by
  rw [lookup_eraseValue_if] at h
  split_ifs at h
  exact h

end ReactorRuntime.Lists
