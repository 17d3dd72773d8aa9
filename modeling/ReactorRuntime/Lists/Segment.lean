import Mathlib.Data.List.TakeDrop

/-!
# Segments of a list

Reading a segment of a list, and overwriting one in place: what was just written is read back, and a
segment before it is read as it was.
-/

namespace ReactorRuntime.Lists

variable {α : Type*}

/-- An entry of a list with one more at its end is that one, or an entry of the list. -/
theorem concat_eq_append_cons_iff {l before after : List α} {x y : α} :
    l ++ [x] = before ++ y :: after ↔
      (l = before ∧ x = y ∧ after = []) ∨
        ∃ rest, after = rest ++ [x] ∧ l = before ++ y :: rest := by
  constructor
  · intro h
    obtain rfl | ⟨rest, z, rfl⟩ := List.eq_nil_or_concat after
    · obtain ⟨hl, hx⟩ := List.append_singleton_inj.mp h
      exact .inl ⟨hl, hx, rfl⟩
    · rw [List.concat_eq_append, ← List.cons_append, ← List.append_assoc] at h
      obtain ⟨hl, rfl⟩ := List.append_singleton_inj.mp h
      exact .inr ⟨rest, List.concat_eq_append, hl⟩
  · rintro (⟨rfl, rfl, rfl⟩ | ⟨rest, rfl, rfl⟩)
    · rfl
    · rw [List.append_assoc, List.cons_append]

def segment (l : List α) (offset length : ℕ) : List α := (l.drop offset).take length

/-- The list with the entries from an offset on replaced by `data`. -/
def overwrite (l : List α) (offset : ℕ) (data : List α) : List α :=
  l.take offset ++ data ++ l.drop (offset + data.length)

variable {l data : List α} {offset : ℕ}

theorem length_overwrite (h : offset + data.length ≤ l.length) :
    (overwrite l offset data).length = l.length := by
  simp only [overwrite, List.length_append, List.length_take, List.length_drop]
  omega

/-- What was written is read back. -/
theorem segment_overwrite_self (h : offset ≤ l.length) :
    segment (overwrite l offset data) offset data.length = data := by
  have htake : (l.take offset).length = offset := by simp [h]
  rw [segment, overwrite, List.append_assoc, List.drop_left' htake, List.take_left]

/-- A segment that ends before what was written is as it was. -/
theorem segment_overwrite_of_le {offset' length : ℕ} (h : offset' + length ≤ offset)
    (hl : offset ≤ l.length) :
    segment (overwrite l offset data) offset' length = segment l offset' length := by
  have htake : (l.take offset).length = offset := by simp [hl]
  rw [segment, overwrite, List.append_assoc, List.drop_append_of_le_length (by omega),
    List.take_append_of_le_length (by simp; omega), List.drop_take, List.take_take]
  rw [segment, Nat.min_eq_left (by omega)]

end ReactorRuntime.Lists
