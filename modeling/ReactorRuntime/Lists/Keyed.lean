import Mathlib.Data.List.Nodup
import Mathlib.Data.List.Count
import Mathlib.Algebra.BigOperators.Group.List.Basic

/-!
# Lists whose entries have distinct keys

A table that is kept as a list, with one entry for each key: looking an entry up by its key,
taking it out, and what that does to the number of entries of a kind; changing it, and what that does
to a sum over the entries; and taking entries out that weigh nothing.
-/

namespace ReactorRuntime.Lists

variable {α κ : Type*} {key : α → κ} {l : List α} {a b : α}

theorem eq_of_key_eq (h : (l.map key).Nodup) (ha : a ∈ l) (hb : b ∈ l) (hkey : key a = key b) :
    a = b :=
  List.inj_on_of_nodup_map h ha hb hkey

theorem nodup_key_filter (h : (l.map key).Nodup) (p : α → Bool) : ((l.filter p).map key).Nodup :=
  h.sublist (List.filter_sublist.map key)

variable [DecidableEq κ]

theorem of_find?_key {k : κ} (h : l.find? (fun b => key b = k) = some a) : a ∈ l ∧ key a = k :=
  ⟨List.mem_of_find?_eq_some h, by simpa using List.find?_some h⟩

/-- An entry is found under its key. -/
theorem find?_key (h : (l.map key).Nodup) (ha : a ∈ l) :
    l.find? (fun b => key b = key a) = some a := by
  cases hb : l.find? (fun b => key b = key a) with
  | none => simpa using List.find?_eq_none.mp hb a ha
  | some b =>
    obtain ⟨hmem, hkey⟩ := of_find?_key hb
    rw [eq_of_key_eq h hmem ha hkey]

/-- Taking out the entry under a key takes out one entry. -/
theorem countP_filter_key_ne (h : (l.map key).Nodup) (ha : a ∈ l) (p : α → Bool) :
    l.countP p = (l.filter fun b => key b ≠ key a).countP p + if p a then 1 else 0 := by
  induction l with
  | nil => cases ha
  | cons b l ih =>
    obtain ⟨hb, hl⟩ := List.nodup_cons.mp h
    rw [List.countP_cons]
    obtain rfl | ha := List.mem_cons.mp ha
    · have hall : l.filter (fun b => key b ≠ key a) = l :=
        List.filter_eq_self.mpr fun c hc => by
          simp only [ne_eq, decide_not, Bool.not_eq_eq_eq_not, Bool.not_true, decide_eq_false_iff_not]
          rintro hkey
          exact hb (hkey ▸ List.mem_map_of_mem hc)
      rw [List.filter_cons_of_neg (by simp), hall]
    · have hne : key b ≠ key a := fun hkey => hb (hkey ▸ List.mem_map_of_mem ha)
      rw [List.filter_cons_of_pos (by simpa using hne), List.countP_cons, ih hl ha]
      omega

/-- Changing the entry under a key changes a sum by what it does to that entry. -/
theorem sum_map_update {M : Type*} [AddCommMonoid M] (h : (l.map key).Nodup) (ha : a ∈ l)
    (f : α → α) (w : α → M) :
    ((l.map fun b => if key b = key a then f b else b).map w).sum + w a =
      (l.map w).sum + w (f a) := by
  induction l with
  | nil => cases ha
  | cons b l ih =>
    obtain ⟨hb, hl⟩ := List.nodup_cons.mp h
    simp only [List.map_cons, List.sum_cons]
    obtain rfl | ha := List.mem_cons.mp ha
    · have hall : (l.map fun b => if key b = key a then f b else b) = l := by
        conv_rhs => rw [← List.map_id l]
        refine List.map_congr_left fun c hc => if_neg fun hkey => ?_
        exact hb (hkey ▸ List.mem_map_of_mem hc)
      rw [if_pos rfl, hall, add_comm (w (f a)), add_comm (w a), add_right_comm]
    · have hne : key b ≠ key a := fun hkey => hb (hkey ▸ List.mem_map_of_mem ha)
      rw [if_neg hne, add_assoc, ih hl ha, add_assoc]

/-- Taking out entries that weigh nothing leaves a sum as it is. -/
theorem sum_map_filter {M : Type*} [AddCommMonoid M] {p : α → Bool} {w : α → M}
    (h : ∀ a ∈ l, p a = false → w a = 0) : ((l.filter p).map w).sum = (l.map w).sum := by
  induction l with
  | nil => rfl
  | cons a l ih =>
    have hl := ih fun b hb => h b (List.mem_cons_of_mem _ hb)
    rw [List.filter_cons]
    split_ifs with hp
    · rw [List.map_cons, List.map_cons, List.sum_cons, List.sum_cons, hl]
    · rw [List.map_cons, List.sum_cons, h a List.mem_cons_self (by simpa using hp), zero_add, hl]

end ReactorRuntime.Lists
